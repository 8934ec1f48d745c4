import PseudoVm.Proofs.Machine.DeadReference
import PseudoVm.Proofs.Machine.Intact
/-!
# Machine.Locations: what a store changes

A store goes through just where a load finds a cell, assigned or not; it changes what is loaded from that cell and
nothing else, and if it fails it changes nothing (`Machine.store_load_laws`).  A global is the same cell as the local of
that slot of the frame at the bottom of the stack (`Reference.cell`); cells of frames are told apart by the slots of a
frame (`Frame.look_put`), cells of the heap by the identity of the storage.
-/
namespace PseudoVm

/-- The cell that a reference leads to, by one name: globals are locals of the frame at the bottom of the stack.  Two
references lead to the same cell if this is the same. -/
def Reference.cell : Reference → Reference
  | .global slot => .local 0 slot
  | r => r

/-- The cells of frames are locals and parameters; there are other cells in the heap. -/
theorem Reference.cell_frame? (r : Reference) :
    (∃ k, r.cell.frame? = some k) ∨ (∃ a i, r = .element a i) ∨ ∃ o i, r = .field o i := by
  cases r with
  | element a i => exact .inr (.inl ⟨a, i, rfl⟩)
  | field o i => exact .inr (.inr ⟨o, i, rfl⟩)
  | _ => exact .inl ⟨_, rfl⟩

theorem getElem?_set_of_some {α : Type} {l : List α} {i : Nat} {old : α} (hold : l[i]? = some old) (a : α) (j : Nat) :
    (l.set i a)[j]? = if i = j then some a else l[j]? := by
  obtain ⟨hlt, -⟩ := List.getElem?_eq_some_iff.1 hold
  rw [List.getElem?_set, if_pos hlt]

namespace Frame

variable {f : Frame} {slot : Nat} {old : Option Value}

theorem localOf_set (hold : Machine.localOf f slot = .ok old) (v : Value) (other : Nat) :
    Machine.localOf { f with locals := f.locals.set slot (some v) } other =
      if slot = other then .ok (some v) else Machine.localOf f other := by
  unfold Machine.localOf at hold ⊢
  split at hold <;> cases hold
  rename_i hget
  rw [getElem?_set_of_some hget]
  by_cases h : slot = other <;> simp [h]

theorem paramOf_set {u : Value} (hold : Machine.paramOf f slot = .ok u) (v : Value) (other : Nat) :
    Machine.paramOf { f with params := f.params.set slot v } other =
      if slot = other then .ok v else Machine.paramOf f other := by
  unfold Machine.paramOf at hold ⊢
  split at hold <;> cases hold
  rename_i hget
  rw [getElem?_set_of_some hget]
  by_cases h : slot = other <;> simp [h]

/-- **What is put into a slot of a frame is found there**, and everything else as before. -/
theorem look_put {r r' : Reference} {k : Nat} (hr : r.frame? = some k) (hr' : r'.frame? = some k)
    (hold : f.look r = .ok old) (v : Value) :
    (f.put v r).look r' = if r = r' then .ok (some v) else f.look r' := by
  cases r <;> cases hr <;> cases r' <;> cases hr'
  case local.refl.local.refl slot other => simp only [look, put, localOf_set hold, Reference.local.injEq, true_and]
  case local.refl.param.refl | param.refl.local.refl => rfl
  case param.refl.param.refl slot other =>
    simp only [look] at hold
    cases hu : Machine.paramOf f slot with
    | error e =>
      rw [hu] at hold
      cases hold
    | ok u =>
      simp only [look, put, paramOf_set hu, Reference.param.injEq, true_and]
      split <;> rfl

end Frame

namespace Machine

variable {m m' : Machine} {r r' : Reference} {v : Value} {old : Option Value}

/-! ## Cells by one name -/

theorem peek_cell (hd : 0 < m.depth) (r : Reference) : m.peek r.cell = m.peek r := by
  cases r with
  | global slot =>
    have hplace : m.place? 0 = some (m.depth - 1 - 0) := if_pos hd
    have hlt : m.depth - 1 - 0 < m.stack.length := by
      unfold depth at hd ⊢
      omega
    simp only [Reference.cell, peek, frame?, hplace, Option.bind_some, List.getElem?_eq_getElem hlt]
  | _ => rfl

theorem write_cell (m : Machine) (r : Reference) (v : Value) : m.write r.cell v = m.write r v := by
  cases r <;> rfl

theorem depth_write (m : Machine) (r : Reference) (v : Value) : (m.write r v).depth = m.depth :=
  (steady_write m r v).depth

/-! ## Cells of frames and of the heap -/

theorem write_world {k : Nat} (hr : r.frame? = some k) (m : Machine) (v : Value) : (m.write r v).world = m.world := by
  rw [write_eq hr, modifyFrame_world]

theorem peek_setHeap {k : Nat} (hr : r.cell.frame? = some k) (m : Machine) (h : Heap) :
    (m.setHeap h).peek r = m.peek r := by
  cases r <;> cases hr <;> rfl

end Machine

theorem Heap.items_setElement (heap : Heap) (a b : ArrayId) (i : Nat) (v : Value) :
    ((heap.setElement a i v).items? b).getD #[] =
      if a = b then ((heap.items? b).getD #[]).setIfInBounds i v else (heap.items? b).getD #[] := by
  have hindex : a.index = b.index ↔ a = b := by
    cases a
    cases b
    simp
  simp only [items?, setElement, Array.getElem?_modify, hindex]
  split
  · cases heap.arrays[b.index]? <;> simp
  · rfl

theorem Heap.fields_setField (heap : Heap) (a b : ObjectId) (i : Nat) (v : Value) :
    ((heap.setField a i v).fields? b).getD #[] =
      if a = b then ((heap.fields? b).getD #[]).setIfInBounds i (some v) else (heap.fields? b).getD #[] := by
  have hindex : a.index = b.index ↔ a = b := by
    cases a
    cases b
    simp
  simp only [fields?, setField, Array.getElem?_modify, hindex]
  split
  · cases heap.objects[b.index]? <;> simp
  · rfl

theorem getElem?_setIfInBounds_of_some {α : Type} {xs : Array α} {i : Nat} {old : α} (hold : xs[i]? = some old) (a : α)
    (j : Nat) : (xs.setIfInBounds i a)[j]? = if i = j then some a else xs[j]? := by
  obtain ⟨hlt, -⟩ := Array.getElem?_eq_some_iff.1 hold
  rw [Array.getElem?_setIfInBounds, if_pos hlt]

namespace Machine

variable {m m' : Machine} {r r' : Reference} {v : Value} {old : Option Value}

theorem peek_write_element {a b : ArrayId} {i j : Nat} (hold : m.peek (.element a i) = .ok old) (v : Value) :
    (m.write (.element a i) v).peek (.element b j) =
      if Reference.element a i = .element b j then .ok (some v) else m.peek (.element b j) := by
  simp only [peek] at hold
  split at hold <;> cases hold
  rename_i hget
  simp only [peek, write, setHeap, Heap.items_setElement, Reference.element.injEq]
  by_cases hab : a = b
  · subst hab
    simp only [if_true, true_and, getElem?_setIfInBounds_of_some hget, Array.size_setIfInBounds]
    by_cases hij : i = j <;> simp [hij]
  · simp [hab]

theorem peek_write_field {a b : ObjectId} {i j : Nat} (hold : m.peek (.field a i) = .ok old) (v : Value) :
    (m.write (.field a i) v).peek (.field b j) =
      if Reference.field a i = .field b j then .ok (some v) else m.peek (.field b j) := by
  simp only [peek] at hold
  split at hold <;> cases hold
  rename_i hget
  simp only [peek, write, setHeap, Heap.fields_setField, Reference.field.injEq]
  by_cases hab : a = b
  · subst hab
    simp only [if_true, true_and, getElem?_setIfInBounds_of_some hget]
    by_cases hij : i = j <;> simp [hij]
  · simp [hab]

theorem frame?_of_peek {k : Nat} (hr : r.frame? = some k) (hold : m.peek r = .ok old) :
    ∃ f, m.frame? k = some f ∧ f.look r = .ok old := by
  cases hf : m.frame? k with
  | none => cases r <;> cases hr <;> simp [peek, hf] at hold
  | some f => exact ⟨f, rfl, (peek_live hr hf).symm.trans hold⟩

theorem peek_write_frame {k k' : Nat} (hr : r.frame? = some k) (hr' : r'.frame? = some k') (hold : m.peek r = .ok old)
    (v : Value) : (m.write r v).peek r' = if r = r' then .ok (some v) else m.peek r' := by
  obtain ⟨f, hf, hlook⟩ := frame?_of_peek hr hold
  by_cases hk : k' = k
  · subst hk
    have hput : (m.write r v).frame? k' = some (f.put v r) := by rw [write_eq hr, frame?_modifyFrame, if_pos rfl, hf]; rfl
    rw [peek_live hr' hput, Frame.look_put hr hr' hlook, peek_live hr' hf]
  · have hne : r ≠ r' := by
      rintro rfl
      exact hk (Option.some.inj (hr'.symm.trans hr))
    have hframe : (m.write r v).frame? k' = m.frame? k' := by rw [write_eq hr, frame?_modifyFrame, if_neg hk]
    rw [if_neg hne]
    cases r' <;> cases hr' <;> simp only [peek, hframe]

theorem depth_pos_of_peek {k : Nat} (hr : r.cell.frame? = some k) (hold : m.peek r = .ok old) : 0 < m.depth := by
  refine Nat.pos_of_ne_zero fun hd => ?_
  have hnone : ∀ n, m.frame? n = none := fun n => frame?_eq_none (by omega)
  cases r <;> cases hr <;> simp [peek, hnone] at hold

/-- **What is written into a cell is found there, and everything else as before.** -/
theorem peek_write (hold : m.peek r = .ok old) (v : Value) (r' : Reference) :
    (m.write r v).peek r' = if r.cell = r'.cell then .ok (some v) else m.peek r' := by
  obtain ⟨k, hk⟩ | ⟨a, i, rfl⟩ | ⟨o, i, rfl⟩ := r.cell_frame?
  · have hd := depth_pos_of_peek hk hold
    rw [← write_cell]
    obtain ⟨k', hk'⟩ | hheap := r'.cell_frame?
    · rw [← peek_cell hd r', ← peek_cell (by rwa [depth_write]) r']
      exact peek_write_frame hk hk' ((peek_cell hd r).trans hold) v
    · have hne : r.cell ≠ r'.cell := by
        intro h
        rw [h] at hk
        obtain ⟨b, j, rfl⟩ | ⟨p, j, rfl⟩ := hheap <;> cases hk
      rw [if_neg hne]
      obtain ⟨b, j, rfl⟩ | ⟨p, j, rfl⟩ := hheap <;> simp only [peek, write_world hk]
  · obtain ⟨k', hk'⟩ | ⟨b, j, rfl⟩ | ⟨p, j, rfl⟩ := r'.cell_frame?
    · rw [if_neg (fun h => by rw [← h] at hk'; cases hk')]
      exact peek_setHeap hk' m _
    · exact peek_write_element hold v
    · rw [if_neg Reference.noConfusion]
      rfl
  · obtain ⟨k', hk'⟩ | ⟨b, j, rfl⟩ | ⟨p, j, rfl⟩ := r'.cell_frame?
    · rw [if_neg (fun h => by rw [← h] at hk'; cases hk')]
      exact peek_setHeap hk' m _
    · rw [if_neg Reference.noConfusion]
      rfl
    · exact peek_write_field hold v

/-! ## Loads -/

theorem namesOf?_eq (m : Machine) (n : Nat) (names : Scope → List String) : m.namesOf? n names =
    match (m.frame? n).map Frame.scope with
    | none => some []
    | some scope => (m.image.scopes[scope]?).map names := by
  unfold namesOf?
  cases m.frame? n <;> rfl

theorem Steady.describe?_eq (h : Steady m m') (r : Reference) : m'.describe? r = m.describe? r := by
  have houtline : ∀ n, (m'.frame? n).map Frame.outline = (m.frame? n).map Frame.outline := by
    intro n
    have hplace : m'.place? n = m.place? n := by rw [place?, place?, h.depth]
    unfold frame?
    rw [hplace]
    cases m.place? n with
    | none => rfl
    | some i => rw [Option.bind_some, Option.bind_some, ← List.getElem?_map, ← List.getElem?_map, h.outlines]
  have hscope : ∀ n, (m'.frame? n).map Frame.scope = (m.frame? n).map Frame.scope := by
    intro n
    have := congrArg (Option.map Outline.scope) (houtline n)
    rwa [Option.map_map, Option.map_map] at this
  cases r <;> simp only [describe?, namesOf?_eq, h.image, hscope]

theorem load_congr (hp : m'.peek r = m.peek r) (hs : Steady m m') : m'.load r = m.load r := by
  rw [load, load, hp, hs.describe?_eq]

theorem peek_of_stack_eq (hst : m'.stack = m.stack) (hh : m'.world.heap = m.world.heap) (r : Reference) :
    m'.peek r = m.peek r := by
  have hframe : m'.frame? = m.frame? := by
    funext n
    unfold frame? place? depth
    rw [hst]
  cases r <;> simp only [peek, hframe, hh]

theorem load_letGo (m : Machine) (vs : List Value) (r : Reference) : (m.letGo vs).load r = m.load r :=
  load_congr (peek_of_stack_eq (letGo_stack m vs) (by rw [letGo_world]) r) (steady_letGo m vs)

theorem load_settle (m : Machine) (r : Reference) : m.settle.load r = m.load r :=
  load_congr (peek_of_stack_eq (settle_stack m) m.settle_heap r) (steady_settle m)

/-- **Loads after a store**: the value from the cell it was put into, and what it was from every other. -/
theorem load_store (h : m.store r v = .ok m') (r' : Reference) :
    m'.load r' = if r.cell = r'.cell then .ok v else m.load r' := by
  rw [store_eq_peek] at h
  split at h <;> cases h
  rename_i old hold
  have hpeek := peek_write hold v r'
  rw [load_letGo]
  split
  · rename_i hcell
    rw [if_pos hcell] at hpeek
    rw [load, hpeek]
  · rename_i hcell
    rw [if_neg hcell] at hpeek
    exact load_congr hpeek (steady_write m r v)

/-- **A store goes through just where there is a cell**, assigned or not. -/
theorem store_ok_iff (hn : m.Named) (r : Reference) (v : Value) : (∃ m', m.store r v = .ok m') ↔
    (∃ u, m.load r = .ok u) ∨ ∃ kind name, m.load r = .error (.fault (.readBeforeAssignment kind name)) := by
  rw [store_eq_peek]
  unfold load
  cases hpeek : m.peek r with
  | error f =>
    refine iff_of_false (fun ⟨m', h⟩ => by cases h) ?_
    rintro (⟨u, h⟩ | ⟨kind, name, h⟩)
    · cases h
    · cases h
      exact Bool.noConfusion (isOfCell_of_peek hpeek)
  | ok old =>
    refine iff_of_true ⟨_, rfl⟩ ?_
    cases old with
    | some u => exact .inl ⟨u, rfl⟩
    | none =>
      obtain ⟨⟨kind, name⟩, hname⟩ := Option.isSome_iff_exists.1 (isSome_describe? hn r)
      exact .inr ⟨kind, name, by rw [hname]⟩

/-- **A program under a debugger has the names of its frames' cells.** -/
theorem Live.named {image : Image} {limits : Limits} (h : Live image limits m) : m.Named := by
  induction h with
  | start _ h => exact named_create? h
  | step _ ih => exact ih.step
  | restart _ h ih => exact ih.restartFrame? h
  | rewind _ ih => exact ih.rewind
  | assign _ _ h ih => exact (steady_assign h).named ih
  | @evaluate m _ id code ih =>
    obtain hsame | ⟨f, k, -, -, heq, -⟩ := m.evaluate_world id code
    · rw [hsame]
      exact ih
    · rw [heq]
      exact ⟨ih.global, ih.frames⟩

/-- **What stores and loads have to do with each other.**  A store goes through just where a load finds a value or a cell
never assigned.  After it that cell has the value, and a load from any other gives what it gave before, be it a value or
a fault.  A store that fails leaves the machine as it was, with the value given to it to be let go.  A value put into a
cell from outside is stored like one of the program's. -/
theorem store_load_laws (hn : m.Named) (r : Reference) (v : Value) :
    ((∃ m', Exec.store r v m = .ok () m') ↔
      (∃ u, m.load r = .ok u) ∨ ∃ kind name, m.load r = .error (.fault (.readBeforeAssignment kind name))) ∧
    (∀ m', Exec.store r v m = .ok () m' → ∀ r', m'.load r' = if r.cell = r'.cell then .ok v else m.load r') ∧
    (∀ s m', Exec.store r v m = .error s m' → m' = m.letGo [v] ∧ m'.stack = m.stack ∧ m'.world = m.world ∧
      ∀ r', m'.load r' = m.load r') ∧
    ((∃ m', m.assign r v = .ok m') ↔ ∃ m', Exec.store r v m = .ok () m') ∧
    ∀ m' m₁, m.assign r v = .ok m' → Exec.store r v m = .ok () m₁ → ∀ r', m'.load r' = m₁.load r' := by
  have hstore : ∀ {m'}, Exec.store r v m = .ok () m' ↔ m.store r v = .ok m' := by
    intro m'
    rw [Exec.store_eq]
    cases m.store r v <;> simp
  refine ⟨(exists_congr fun _ => hstore).trans (store_ok_iff hn r v), fun m' h => load_store (hstore.1 h),
    fun s m' h => ?_, ⟨?_, ?_⟩, fun m' m₁ h h₁ => ?_⟩
  · obtain rfl : m' = m.letGo [v] := by
      rw [Exec.store_eq] at h
      cases hs : m.store r v <;> rw [hs] at h <;> cases h
      rfl
    exact ⟨rfl, letGo_stack m [v], letGo_world m [v], load_letGo m [v]⟩
  · rintro ⟨m', h⟩
    obtain ⟨m₁, hs, -⟩ := assign_eq_ok_iff.1 h
    exact ⟨m₁, hstore.2 hs⟩
  · rintro ⟨m₁, h⟩
    exact ⟨m₁.settle, assign_eq_ok_iff.2 ⟨m₁, hstore.1 h, rfl⟩⟩
  · obtain ⟨m₂, hs, rfl⟩ := assign_eq_ok_iff.1 h
    cases hs.symm.trans (hstore.1 h₁)
    exact load_settle m₁

/-- A value stored through a global is found through the bottom frame's local, and not in the frame of the call. -/
theorem store_load_laws_selfCall :
    ∃ m', Exec.store (.global 0) (.int 7) (selfCallStart.stepped 3) = .ok () m' ∧
      m'.load (.local 0 0) = .ok (.int 7) ∧ m'.load (.local 1 0) = (selfCallStart.stepped 3).load (.local 1 0) := by
  have hlive : Live selfCall {} (selfCallStart.stepped 3) := (Live.start (World.closed_of_empty rfl rfl) rfl).stepped 3
  obtain ⟨hiff, hload, -⟩ := store_load_laws hlive.named (.global 0) (.int 7)
  obtain ⟨m', hm'⟩ := hiff.2 (.inr ⟨.global, "x", rfl⟩)
  exact ⟨m', hm', hload m' hm' (.local 0 0), hload m' hm' (.local 1 0)⟩

end Machine

end PseudoVm
