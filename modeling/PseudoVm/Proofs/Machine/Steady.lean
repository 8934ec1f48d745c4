import PseudoVm.Proofs.Machine.Compositional
/-!
# Machine.Steady: what an instruction leaves alone

Most instructions stay inside the latest frame: they pop and push its operands, write cells and act on the world, and
leave the outline of every frame and the operands of every other frame as they were (`Machine.Steady`).  `Exec.Keeps`
says so of an instruction under way, however it ends, and that it does not end because a table of the image lacks an
entry, given what it assumes of the image; it is closed under sequencing, so it is proved piece by piece.

Only calls and returns change the frames; `Machine.Transition` has them.
-/
namespace PseudoVm

/-- A frame without the contents of its cells and its operands. -/
structure Outline where
  scope : ScopeId
  start : Nat
  returnPc : Nat
  args : List Value
  params : Nat
  locals : Nat

/-- The outline of a frame. -/
def Frame.outline (f : Frame) : Outline :=
  ⟨f.scope, f.start, f.returnPc, f.args, f.params.length, f.locals.length⟩

theorem map_modify_of_eq {α β : Type} {view : α → β} {g : α → α} (h : ∀ a, view (g a) = view a) :
    ∀ (l : List α) (i : Nat), (l.modify i g).map view = l.map view
  | [], i => by simp
  | a :: l, 0 => by simp [h]
  | a :: l, i + 1 => by simp [map_modify_of_eq h l i]

namespace Machine

/-- **Only operands of the latest frame, contents of cells and the world differ.** -/
structure Steady (m m' : Machine) : Prop where
  image : m'.image = m.image
  limits : m'.limits = m.limits
  pc : m'.pc = m.pc
  executed : m'.executed = m.executed
  result : m'.result = m.result
  suspended : m'.suspended = m.suspended
  outlines : m'.stack.map Frame.outline = m.stack.map Frame.outline
  operands : m'.stack.tail.map Frame.eval = m.stack.tail.map Frame.eval

/-- The image has the scope of the whole program and of every frame. -/
structure Named (m : Machine) : Prop where
  global : m.image.global?.isSome
  frames : ∀ f ∈ m.stack, (m.image.scopes[f.scope]?).isSome

namespace Steady

theorem refl (m : Machine) : Steady m m := ⟨rfl, rfl, rfl, rfl, rfl, rfl, rfl, rfl⟩

theorem trans {m₁ m₂ m₃ : Machine} (h : Steady m₁ m₂) (h' : Steady m₂ m₃) : Steady m₁ m₃ :=
  ⟨h'.image.trans h.image, h'.limits.trans h.limits, h'.pc.trans h.pc, h'.executed.trans h.executed,
    h'.result.trans h.result, h'.suspended.trans h.suspended, h'.outlines.trans h.outlines,
    h'.operands.trans h.operands⟩

theorem depth {m m' : Machine} (h : Steady m m') : m'.depth = m.depth := by
  have := congrArg List.length h.outlines
  simpa [Machine.depth] using this

theorem isDone {m m' : Machine} (h : Steady m m') : m'.isDone = m.isDone := by
  have := congrArg List.isEmpty h.outlines
  rw [List.isEmpty_map, List.isEmpty_map] at this
  exact this

theorem of_stack_eq {m m' : Machine} (hi : m'.image = m.image) (hl : m'.limits = m.limits) (hp : m'.pc = m.pc)
    (he : m'.executed = m.executed) (hr : m'.result = m.result) (hs : m'.suspended = m.suspended)
    (hst : m'.stack = m.stack) : Steady m m' :=
  ⟨hi, hl, hp, he, hr, hs, by rw [hst], by rw [hst]⟩

theorem named {m m' : Machine} (h : Steady m m') (hn : m.Named) : m'.Named := by
  refine ⟨by rw [h.image]; exact hn.global, fun f hf => ?_⟩
  have hmem : f.outline ∈ m.stack.map Frame.outline := by
    rw [← h.outlines]; exact List.mem_map_of_mem hf
  obtain ⟨g, hg, hgf⟩ := List.mem_map.1 hmem
  have hscope : g.scope = f.scope := congrArg Outline.scope hgf
  rw [h.image, ← hscope]
  exact hn.frames g hg

end Steady

theorem steady_letGo (m : Machine) (vs : List Value) : Steady m (m.letGo vs) := by
  unfold letGo
  split
  · exact .refl m
  · exact .of_stack_eq rfl rfl rfl rfl rfl rfl rfl

theorem steady_settle (m : Machine) : Steady m m.settle := by
  unfold settle
  split
  · exact .refl m
  · split <;> exact .of_stack_eq rfl rfl rfl rfl rfl rfl rfl

@[simp] theorem letGo_stack (m : Machine) (vs : List Value) : (m.letGo vs).stack = m.stack := by
  unfold letGo
  split <;> rfl

theorem letGo_world (m : Machine) (vs : List Value) : (m.letGo vs).world = m.world := by
  unfold letGo
  split <;> rfl

@[simp] theorem settle_stack (m : Machine) : m.settle.stack = m.stack := by
  unfold settle
  split
  · rfl
  · split <;> rfl

@[simp] theorem letGo_image (m : Machine) (vs : List Value) : (m.letGo vs).image = m.image := (m.steady_letGo vs).image

@[simp] theorem letGo_limits (m : Machine) (vs : List Value) : (m.letGo vs).limits = m.limits :=
  (m.steady_letGo vs).limits

@[simp] theorem letGo_pc (m : Machine) (vs : List Value) : (m.letGo vs).pc = m.pc := (m.steady_letGo vs).pc

@[simp] theorem letGo_executed (m : Machine) (vs : List Value) : (m.letGo vs).executed = m.executed :=
  (m.steady_letGo vs).executed

@[simp] theorem settle_image (m : Machine) : m.settle.image = m.image := m.steady_settle.image

@[simp] theorem settle_limits (m : Machine) : m.settle.limits = m.limits := m.steady_settle.limits

@[simp] theorem settle_pc (m : Machine) : m.settle.pc = m.pc := m.steady_settle.pc

@[simp] theorem settle_executed (m : Machine) : m.settle.executed = m.executed := m.steady_settle.executed

theorem steady_setHeap (m : Machine) (heap : Heap) : Steady m (m.setHeap heap) :=
  .of_stack_eq rfl rfl rfl rfl rfl rfl rfl

theorem steady_modifyFrame (m : Machine) (frame : Nat) (g : Frame → Frame) (ho : ∀ f, (g f).outline = f.outline)
    (he : ∀ f, (g f).eval = f.eval) : Steady m (m.modifyFrame frame g) := by
  unfold modifyFrame
  split
  · rename_i i _
    refine ⟨rfl, rfl, rfl, rfl, rfl, rfl, map_modify_of_eq ho m.stack i, ?_⟩
    rw [List.map_tail, List.map_tail]
    exact congrArg List.tail (map_modify_of_eq he m.stack i)
  · exact .refl m

theorem steady_write (m : Machine) (r : Reference) (v : Value) : Steady m (m.write r v) := by
  cases r with
  | global slot => exact steady_modifyFrame m 0 _ (fun f => by simp [Frame.outline]) (fun f => rfl)
  | «local» frame slot => exact steady_modifyFrame m frame _ (fun f => by simp [Frame.outline]) (fun f => rfl)
  | param frame slot => exact steady_modifyFrame m frame _ (fun f => by simp [Frame.outline]) (fun f => rfl)
  | element array index => exact steady_setHeap m _
  | field object index => exact steady_setHeap m _

theorem steady_store {m m' : Machine} {r : Reference} {v : Value} (h : m.store r v = .ok m') : Steady m m' := by
  rw [store_eq_peek] at h
  split at h
  · cases h
  · cases h
    exact (steady_write m r v).trans (steady_letGo _ _)

/-! ## Looking at cells -/

/-- **A cell that cannot be looked at is not there.** -/
theorem isOfCell_of_peek {m : Machine} {r : Reference} {f : Fault} (h : m.peek r = .error f) : f.isOfCell = true := by
  cases r with
  | global slot | «local» frame slot =>
    simp only [peek, localOf] at h
    split at h
    · split at h <;> cases h
      rfl
    · cases h
      rfl
  | param frame slot =>
    simp only [peek, paramOf] at h
    split at h
    · split at h <;> cases h
      rfl
    · cases h
      rfl
  | element array index | field object index =>
    simp only [peek] at h
    split at h <;> cases h
    rfl

theorem isSome_namesOf? {m : Machine} (hn : m.Named) (frame : Nat) (names : Scope → List String) :
    (m.namesOf? frame names).isSome := by
  unfold namesOf?
  split
  · rfl
  · rename_i f hf
    have hmem : f ∈ m.stack := by
      obtain ⟨i, -, hi⟩ := Option.bind_eq_some_iff.1 hf
      exact List.mem_of_getElem? hi
    rw [Option.isSome_map]
    exact hn.frames f hmem

theorem isSome_describe? {m : Machine} (hn : m.Named) (r : Reference) : (m.describe? r).isSome := by
  cases r with
  | global slot => rw [describe?, Option.isSome_map]; exact hn.global
  | «local» frame slot => rw [describe?, Option.isSome_map]; exact isSome_namesOf? hn frame _
  | param frame slot => rw [describe?, Option.isSome_map]; exact isSome_namesOf? hn frame _
  | element array index => rfl
  | field object index => rfl

theorem load_missesTable {m : Machine} {r : Reference} {s : Stop} (h : m.load r = .error s) (hn : m.Named) :
    s.missesTable = false := by
  unfold load at h
  split at h
  · rename_i f hf
    cases h
    exact Fault.missesTable_of_isPlain (Fault.isPlain_of_isOfCell (isOfCell_of_peek hf))
  · cases h
  · split at h
    · cases h
      rfl
    · rename_i hd
      have := isSome_describe? hn r
      rw [hd] at this
      cases this

theorem isOfCell_of_store {m : Machine} {r : Reference} {v : Value} {f : Fault} (h : m.store r v = .error f) :
    f.isOfCell = true := by
  rw [store_eq_peek] at h
  split at h
  · rename_i hf
    cases h
    exact isOfCell_of_peek hf
  · cases h

end Machine

/-! ## Instructions under way -/

namespace Exec

variable {α β : Type}

theorem bind_ok_iff {x : Exec α} {k : α → Exec β} {m m' : Machine} {b : β} :
    (x >>= k) m = .ok b m' ↔ ∃ a m₁, x m = .ok a m₁ ∧ k a m₁ = .ok b m' := by
  simp only [Bind.bind, EStateM.bind]
  cases x m <;> simp [and_assoc]

theorem bind_error_iff {x : Exec α} {k : α → Exec β} {m m' : Machine} {s : Stop} :
    (x >>= k) m = .error s m' ↔ x m = .error s m' ∨ ∃ a m₁, x m = .ok a m₁ ∧ k a m₁ = .error s m' := by
  simp only [Bind.bind, EStateM.bind]
  cases x m <;> simp [and_assoc]

/-- **However it ends, it leaves the frames alone**, and no table that `A` admits is why it stops. -/
structure Keeps (A : Image → Prop) (x : Exec α) : Prop where
  ok : ∀ {m a m'}, x m = .ok a m' → m.Steady m'
  error : ∀ {m s m'}, x m = .error s m' → m.Steady m' ∧ (A m.image → m.Named → s.missesTable = false)

namespace Keeps

variable {A : Image → Prop}

theorem pure (a : α) : Keeps A (pure a : Exec α) :=
  ⟨fun h => by cases h; exact .refl _, fun h => by cases h⟩

theorem throw {s : Stop} (hs : s.missesTable = false) : Keeps A (throw s : Exec α) :=
  ⟨fun h => by (cases h), fun h => by cases h; exact ⟨.refl _, fun _ _ => hs⟩⟩

theorem fault {f : Fault} (hf : f.missesTable = false) : Keeps A (Exec.fault f : Exec α) := throw hf

theorem get : Keeps A (get : Exec Machine) := ⟨fun h => by cases h; exact .refl _, fun h => by cases h⟩

theorem modify {g : Machine → Machine} (hg : ∀ m, Machine.Steady m (g m)) : Keeps A (modify g : Exec Unit) :=
  ⟨fun h => by cases h; exact hg _, fun h => by cases h⟩

theorem bind {x : Exec α} {k : α → Exec β} (hx : Keeps A x) (hk : ∀ a, Keeps A (k a)) : Keeps A (x >>= k) := by
  refine ⟨fun h => ?_, fun h => ?_⟩
  · obtain ⟨a, m₁, h1, h2⟩ := bind_ok_iff.1 h
    exact (hx.ok h1).trans ((hk a).ok h2)
  · obtain h1 | ⟨a, m₁, h1, h2⟩ := bind_error_iff.1 h
    · exact hx.error h1
    · have st := hx.ok h1
      obtain ⟨st', hs⟩ := (hk a).error h2
      exact ⟨st.trans st', fun ha hn => hs (by rw [st.image]; exact ha) (st.named hn)⟩

end Keeps

/-! ## The primitives -/

variable {A : Image → Prop}

theorem get_eq (m : Machine) : (get : Exec Machine) m = .ok m m := rfl

theorem top_eq (m : Machine) :
    top m = match m.stack with
      | frame :: _ => .ok frame m
      | [] => .error (.fault (.internal .noFrame)) m := by
  obtain ⟨image, limits, pc, stack, executed, result, suspended, loose, world⟩ := m
  cases stack <;> rfl

theorem keeps_top : Keeps A top := by
  refine .bind .get fun m => ?_
  split
  · exact .pure _
  · exact .fault rfl

theorem steady_setEval (eval : List Value) (m : Machine) : m.Steady (match m.stack with
    | frame :: rest => { m with stack := { frame with eval := eval } :: rest }
    | [] => m) := by
  split
  · rename_i frame rest h
    exact ⟨rfl, rfl, rfl, rfl, rfl, rfl, by rw [h]; rfl, by rw [h]; rfl⟩
  · exact .refl m

theorem keeps_setEval (eval : List Value) : Keeps A (setEval eval) := .modify (steady_setEval eval)

theorem keeps_letGo (vs : List Value) : Keeps A (letGo vs) := .modify fun m => m.steady_letGo vs

theorem Keeps.holding {vs : List Value} {x : Exec α} (hx : Keeps A x) : Keeps A (holding vs x) := by
  refine ⟨fun {m a m'} h => ?_, fun {m s m'} h => ?_⟩
  · unfold Exec.holding at h
    split at h
    · rename_i h'
      cases h
      exact (hx.ok h').trans (Machine.steady_letGo _ vs)
    · cases h
  · unfold Exec.holding at h
    split at h
    · cases h
    · rename_i h'
      cases h
      exact ⟨(hx.error h').1.trans (Machine.steady_letGo _ vs), (hx.error h').2⟩

theorem load_eq (r : Reference) (m : Machine) :
    load r m = match m.load r with
      | .ok v => .ok v m
      | .error s => .error s m := by
  change (match m.load r with | .ok v => pure v | .error s => throw s : Exec Value) m = _
  cases m.load r <;> rfl

theorem keeps_load (r : Reference) : Keeps A (load r) := by
  refine ⟨fun {m a m'} h => ?_, fun {m s m'} h => ?_⟩
  · rw [load_eq] at h
    split at h <;> cases h
    exact .refl m
  · rw [load_eq] at h
    split at h <;> cases h
    rename_i hs
    exact ⟨.refl m, fun _ hn => Machine.load_missesTable hs hn⟩

theorem store_eq (r : Reference) (v : Value) (m : Machine) :
    store r v m = match m.store r v with
      | .ok m' => .ok () m'
      | .error f => .error (.fault f) (m.letGo [v]) := by
  change (match m.store r v with | .ok m' => set m' | .error f => do letGo [v]; fault f : Exec Unit) m = _
  cases m.store r v <;> rfl

theorem keeps_store (r : Reference) (v : Value) : Keeps A (store r v) := by
  refine ⟨fun {m a m'} h => ?_, fun {m s m'} h => ?_⟩
  · rw [store_eq] at h
    split at h <;> cases h
    rename_i hs
    exact Machine.steady_store hs
  · rw [store_eq] at h
    split at h <;> cases h
    rename_i f hf
    have hplain := Fault.isPlain_of_isOfCell (Machine.isOfCell_of_store hf)
    exact ⟨m.steady_letGo [v], fun _ _ => Fault.missesTable_of_isPlain hplain⟩

theorem keeps_topNumber : Keeps A topNumber := by
  refine .bind .get fun m => ?_
  dsimp only
  split
  · exact .bind (.fault rfl) fun _ => .pure _
  · exact .pure _

theorem keeps_heap : Keeps A heap := .bind .get fun _ => .pure _

theorem keeps_setHeap (h : Heap) : Keeps A (modify (·.setHeap h) : Exec Unit) := .modify fun m => m.steady_setHeap h

theorem act_eq (a : Library.Act α) (m : Machine) :
    act a m = match a m.world with
      | .ok v world => .ok v { m with world := world }
      | .error s world => .error s { m with world := world } := by
  cases m
  rfl

theorem keeps_act {a : Library.Act α} (ha : Library.ProperAct a) : Keeps A (act a) := by
  refine ⟨fun {m b m'} h => ?_, fun {m s m'} h => ?_⟩
  · rw [act_eq] at h
    split at h <;> cases h
    exact .of_stack_eq rfl rfl rfl rfl rfl rfl rfl
  · rw [act_eq] at h
    split at h <;> cases h
    rename_i hs
    exact ⟨.of_stack_eq rfl rfl rfl rfl rfl rfl rfl, fun _ _ => ha _ _ _ hs⟩

/-! ## Instructions that stay in their frame -/

theorem keeps_field (cls : ClassId) (object : ObjectId) (index : Nat) : Keeps A (field cls object index) := by
  refine keeps_heap.bind fun h => ?_
  split
  · exact .pure _
  · exact .bind .get fun _ => .fault rfl
  · exact .fault rfl

/-- **Instructions keep the frames as far as their parts do.** -/
theorem compositional_keeps (A : Image → Prop) : Compositional fun _ x => Keeps A x where
  pure := .pure
  bind := .bind
  holding := .holding
  fault hf := .fault (Fault.missesTable_of_isPlain hf)
  top := keeps_top
  setEval := keeps_setEval
  letGo := keeps_letGo
  load := keeps_load
  store := keeps_store
  topNumber := keeps_topNumber
  heap := keeps_heap
  setHeap := keeps_setHeap
  field := keeps_field

theorem keeps_push (v : Value) : Keeps A (push v) := (compositional_keeps A).push v

theorem keeps_popMany (n : Nat) : Keeps A (popMany n) := (compositional_keeps A).popMany n

theorem keeps_popAs {as : Value → Except Fault α} (has : ∀ v, Ordinary (as v)) : Keeps A (popAs as) :=
  (compositional_keeps A).popAs has

theorem top_eq_ok {m m' : Machine} {f : Frame} (h : top m = .ok f m') : f ∈ m.stack ∧ m' = m := by
  rw [top_eq] at h
  split at h
  · rename_i hst
    cases h
    rw [hst]
    exact ⟨List.mem_cons_self, rfl⟩
  · cases h

/-- The failure of a cell never assigned behind a parameter: the parameter's name is looked up. -/
theorem nameParam_error {m m' : Machine} {s : Stop} {slot : Nat}
    (h : (do
      let scope ← require m.image.scopes[(← top).scope]?
      fault (.readBeforeAssignment .param (scope.params[slot]?.getD "")) : Exec Value) m = .error s m') :
    m.Steady m' ∧ (m.Named → s.missesTable = false) := by
  obtain h1 | ⟨f, m₁, h1, h2⟩ := bind_error_iff.1 h
  · have hk := (keeps_top (A := fun _ => True)).error h1
    exact ⟨hk.1, hk.2 trivial⟩
  · obtain ⟨hf, hm⟩ := top_eq_ok h1
    rw [hm] at h2
    cases hs : m.image.scopes[f.scope]? with
    | none =>
      rw [hs] at h2
      cases h2
      refine ⟨.refl m, fun hn => ?_⟩
      have := hn.frames f hf
      rw [hs] at this
      cases this
    | some scope =>
      rw [hs] at h2
      cases h2
      exact ⟨.refl m, fun _ => rfl⟩

theorem keeps_pointee (slot : Nat) : Keeps A (pointee slot) := by
  have hparts := compositional_keeps A
  refine (hparts.param slot).bind fun v => (hparts.check (ordinary_asReference v)).bind fun r => ?_
  refine ⟨fun {m a m'} h => ?_, fun {m s m'} h => ?_⟩
  · obtain ⟨_, _, h1, h2⟩ := bind_ok_iff.1 h
    cases h1
    cases hl : m.load r with
    | ok v => rw [hl] at h2; cases h2; exact .refl m
    | error e =>
      rw [hl] at h2
      cases e with
      | abort a => cases h2
      | fault f =>
        cases f
        case readBeforeAssignment =>
          obtain ⟨_, _, _, h3⟩ := bind_ok_iff.1 h2
          obtain ⟨_, _, _, h4⟩ := bind_ok_iff.1 h3
          cases h4
        all_goals cases h2
  · obtain h1 | ⟨_, _, h1, h2⟩ := bind_error_iff.1 h
    · cases h1
    cases h1
    cases hl : m.load r with
    | ok v => rw [hl] at h2; cases h2
    | error e =>
      rw [hl] at h2
      have he : A m.image → m.Named → e.missesTable = false := fun _ hn => Machine.load_missesTable hl hn
      cases e with
      | abort a => cases h2; exact ⟨.refl m, he⟩
      | fault f =>
        cases f
        case readBeforeAssignment =>
          obtain ⟨st, hs⟩ := nameParam_error h2
          exact ⟨st, fun _ => hs⟩
        all_goals cases h2; exact ⟨.refl m, he⟩

theorem keeps_callLibrary (index nargs : Nat) : Keeps A (callLibrary index nargs) := by
  refine (keeps_popMany nargs).bind fun args => .holding ?_
  split
  · exact .fault rfl
  · rename_i f _
    refine (keeps_act (Library.call_missesTable f args)).bind fun v => ?_
    split
    · exact (keeps_push _).bind fun _ => .pure _
    · exact .pure _

theorem keeps_copyArray (dims : Nat) : Keeps A (copyArray dims) := by
  have hparts := compositional_keeps A
  refine hparts.pop.bind fun v => .holding <| (hparts.check (ordinary_asArray v)).bind fun _ => keeps_heap.bind fun h => ?_
  split
  · exact .throw rfl
  · exact (keeps_setHeap _).bind fun _ => keeps_push _

theorem keeps_newObject (cls : ClassId) (nfields : Nat) : Keeps A (newObject cls nfields) := by
  unfold newObject
  split
  · refine .bind (.throw rfl) fun _ => ?_
    exact keeps_heap.bind fun _ => (keeps_setHeap _).bind fun _ => keeps_push _
  · exact keeps_heap.bind fun _ => (keeps_setHeap _).bind fun _ => keeps_push _

end Exec

end PseudoVm
