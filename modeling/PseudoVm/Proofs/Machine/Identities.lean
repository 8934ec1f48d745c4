import PseudoVm.Proofs.Library.Identities
import PseudoVm.Proofs.Machine.FailedStep
/-!
# Machine.Identities: instructions do not look at identities

An instruction under way hands storage on as it comes (`Exec.Blind`).  With a graft in the heap it goes the same way,
by other identities; and if all values refer to a region's storage, in a heap where the region is closed, then so do
those that it comes by.
-/
namespace PseudoVm

variable {g : Graft} {R : Region} {writes : Bool}

/-! ## Machines with a graft -/

namespace Graft

variable (g)

/-- A frame with the graft in the heap. -/
def frame (f : Frame) : Frame :=
  { f with
    args := f.args.map g.value
    params := f.params.map g.value
    locals := f.locals.map (·.map g.value)
    eval := f.eval.map g.value }

/-- **The machine with the graft in its heap.** -/
def machine (m : Machine) : Machine :=
  { m with
    stack := m.stack.map g.frame
    result := m.result.map g.value
    suspended := m.suspended.map g.frame
    loose := m.loose.map g.value
    world := g.world m.world }

/-- An end of an instruction under way with the graft in the heap. -/
def ending {α β : Type} (ρ : α → β) : EStateM.Result Stop Machine α → EStateM.Result Stop Machine β
  | .ok a m => .ok (ρ a) (g.machine m)
  | .error s m => .error s (g.machine m)

theorem frame_values (f : Frame) : (g.frame f).values = f.values.map g.value := by
  simp [frame, Frame.values, Frame.cellValues, List.filterMap_map, List.map_filterMap]

theorem frame_cellValues (f : Frame) : (g.frame f).cellValues = f.cellValues.map g.value := by
  simp [frame, Frame.cellValues, List.filterMap_map, List.map_filterMap]

theorem flatMap_values (fs : List Frame) :
    (fs.map g.frame).flatMap Frame.values = (fs.flatMap Frame.values).map g.value := by
  rw [List.flatMap_map, List.map_flatMap]
  exact congrArg (fun f => fs.flatMap f) (funext g.frame_values)

theorem filter_storage (vs : List Value) : (vs.map g.value).filter (·.storage?.isSome) =
    (vs.filter (·.storage?.isSome)).map g.value := by
  rw [List.filter_map]
  refine congrArg (List.map g.value) (List.filter_congr fun v _ => ?_)
  simp

theorem letGo_machine (m : Machine) (vs : List Value) :
    (g.machine m).letGo (vs.map g.value) = g.machine (m.letGo vs) := by
  unfold Machine.letGo
  rw [g.filter_storage]
  cases vs.filter (·.storage?.isSome) with
  | nil => rfl
  | cons v vs => simp [machine]

end Graft

/-! ## Machines within a region -/

/-- What a frame holds refers to no storage but a region's. -/
structure Frame.Within (R : Region) (f : Frame) : Prop where
  args : ∀ v ∈ f.args, v.Within R
  params : ∀ v ∈ f.params, v.Within R
  locals : ∀ v, some v ∈ f.locals → v.Within R
  eval : ∀ v ∈ f.eval, v.Within R

theorem Frame.within_iff {f : Frame} : f.Within R ↔ ∀ v ∈ f.values, v.Within R := by
  have hmem : ∀ v, v ∈ f.values ↔ v ∈ f.args ∨ v ∈ f.params ∨ some v ∈ f.locals ∨ v ∈ f.eval := by
    simp [values, cellValues]
  simp only [hmem]
  exact ⟨fun h v => Or.rec (h.args v) (Or.rec (h.params v) (Or.rec (h.locals v) (h.eval v))),
    fun h => ⟨fun v hv => h v (.inl hv), fun v hv => h v (.inr (.inl hv)), fun v hv => h v (.inr (.inr (.inl hv))),
      fun v hv => h v (.inr (.inr (.inr hv)))⟩⟩

namespace Machine

/-- **What a machine holds refers to no storage but a region's**, and what is inside that does neither. -/
structure Within (R : Region) (m : Machine) : Prop where
  stack : ∀ f ∈ m.stack, f.Within R
  result : ∀ v, m.result = some v → v.Within R
  suspended : ∀ f ∈ m.suspended, f.Within R
  loose : ∀ v ∈ m.loose, v.Within R
  closed : m.world.heap.Closed R

theorem Within.setWorld {R' : Region} {m : Machine} (hm : m.Within R) (h : ∀ s, R s → R' s) {w : World}
    (hc : w.heap.Closed R') : ({ m with world := w } : Machine).Within R' := by
  have hframe : ∀ f : Frame, f.Within R → f.Within R' := fun f hf =>
    Frame.within_iff.2 fun v hv => (Frame.within_iff.1 hf v hv).mono h
  exact ⟨fun f hf => hframe f (hm.stack f hf), fun v hv => (hm.result v hv).mono h,
    fun f hf => hframe f (hm.suspended f hf), fun v hv => (hm.loose v hv).mono h, hc⟩

theorem Within.setStack {m : Machine} (hm : m.Within R) {stack : List Frame} (h : ∀ f ∈ stack, f.Within R) :
    ({ m with stack := stack } : Machine).Within R :=
  { hm with stack := h }

theorem Within.letGo {m : Machine} (hm : m.Within R) {vs : List Value} (hv : ∀ v ∈ vs, v.Within R) :
    (m.letGo vs).Within R := by
  unfold Machine.letGo
  split
  · exact hm
  · refine { hm with loose := fun v h => ?_ }
    rcases List.mem_append.1 h with h | h
    · exact hm.loose v h
    · exact hv v (List.mem_filter.1 h).1

/-- A machine within a region, in whose heap a graft has its place. -/
structure Hosts (g : Graft) (R : Region) (m : Machine) : Prop where
  within : m.Within R
  fits : g.Fits m.world.heap

end Machine

/-- From one world to another only cells were written, and none if nothing `writes`. -/
structure World.Overwritten (writes : Bool) (w w₁ : World) : Prop where
  rest : w₁ = { w with heap := w₁.heap }
  arrays : w₁.heap.arrays.size = w.heap.arrays.size
  objects : w₁.heap.objects.size = w.heap.objects.size
  same : writes = false → w₁ = w

namespace World.Overwritten

theorem refl (w : World) : Overwritten writes w w := ⟨rfl, rfl, rfl, fun _ => rfl⟩

theorem trans {w w₁ w₂ : World} (h : Overwritten writes w w₁) (h' : Overwritten writes w₁ w₂) :
    Overwritten writes w w₂ :=
  ⟨by rw [h'.rest, h.rest], h'.arrays.trans h.arrays, h'.objects.trans h.objects,
    fun hw => (h'.same hw).trans (h.same hw)⟩

theorem fits {w w₁ : World} (h : Overwritten writes w w₁) (hf : g.Fits w.heap) : g.Fits w₁.heap :=
  ⟨by rw [h.arrays]; exact hf.arrays, by rw [h.objects]; exact hf.objects⟩

end World.Overwritten

/-! ## Instructions under way -/

namespace Exec

variable {α β γ δ : Type} {ρ : α → β} {σ : γ → δ} {Q : α → Prop} {P : γ → Prop}

theorem ending_bind {m : Machine} {x : Exec α} {y : Exec β} {k : α → Exec γ} {l : β → Exec δ}
    (hx : y (g.machine m) = g.ending ρ (x m))
    (hk : ∀ {a m₁}, x m = .ok a m₁ → l (ρ a) (g.machine m₁) = g.ending σ (k a m₁)) :
    (y >>= l) (g.machine m) = g.ending σ ((x >>= k) m) := by
  simp only [Bind.bind, EStateM.bind, hx]
  cases h : x m with
  | ok a m₁ => exact hk h
  | error s m₁ => rfl

theorem ending_holding {m : Machine} {x : Exec α} {y : Exec β} (hx : y (g.machine m) = g.ending ρ (x m))
    (vs : List Value) : holding (vs.map g.value) y (g.machine m) = g.ending ρ (holding vs x m) := by
  unfold holding
  rw [hx]
  cases x m <;> simp only [Graft.ending, Graft.letGo_machine]

/-- **With a graft one does what the other does without**, by other names; it stays within a region that it starts in,
and so does what it comes to.  Of the world it changes no more than the contents of cells. -/
structure Blind (g : Graft) (R : Region) (writes : Bool) (ρ : α → β) (Q : α → Prop) (x : Exec α) (y : Exec β) :
    Prop where
  graft : ∀ {m}, m.Hosts g R → y (g.machine m) = g.ending ρ (x m)
  ok : ∀ {m a m₁}, m.Hosts g R → x m = .ok a m₁ → Q a ∧ m₁.Within R ∧ m.world.Overwritten writes m₁.world
  error : ∀ {m s m₁}, m.Hosts g R → x m = .error s m₁ → m₁.Within R ∧ m.world.Overwritten writes m₁.world

/-- One that comes to something without storage. -/
abbrev BlindSame (g : Graft) (R : Region) (writes : Bool) (x y : Exec α) : Prop :=
  Blind g R writes id (fun _ => True) x y

namespace Blind

theorem pure {a : α} {b : β} (hb : ρ a = b) (ha : Q a) : Blind g R writes ρ Q (pure a) (pure b) :=
  ⟨fun _ => by rw [← hb]; rfl, fun hm h => by cases h; exact ⟨ha, hm.within, .refl _⟩, fun _ h => by cases h⟩

theorem throw (s : Stop) : Blind g R writes ρ Q (throw s) (throw s) :=
  ⟨fun _ => rfl, fun _ h => by (cases h), fun hm h => by cases h; exact ⟨hm.within, .refl _⟩⟩

theorem fault (f : Fault) : Blind g R writes ρ Q (Exec.fault f) (Exec.fault f) := throw _

theorem fault_bind (f : Fault) {k : α → Exec γ} {l : α → Exec δ} :
    Blind g R writes σ P (Exec.fault f >>= k) (Exec.fault f >>= l) :=
  ⟨fun _ => rfl, fun _ h => by (cases h), fun hm h => by cases h; exact ⟨hm.within, .refl _⟩⟩

theorem bind {x : Exec α} {y : Exec β} {k : α → Exec γ} {l : β → Exec δ} (hx : Blind g R writes ρ Q x y)
    (hk : ∀ a, Q a → Blind g R writes σ P (k a) (l (ρ a))) : Blind g R writes σ P (x >>= k) (y >>= l) := by
  refine ⟨fun {m} hm => ?_, fun {m b m₂} hm h => ?_, fun {m s m₂} hm h => ?_⟩
  · refine ending_bind (hx.graft hm) fun {a m₁} h1 => ?_
    obtain ⟨ha, hm₁, hw⟩ := hx.ok hm h1
    exact (hk a ha).graft ⟨hm₁, hw.fits hm.fits⟩
  · obtain ⟨a, m₁, h1, h2⟩ := bind_ok_iff.1 h
    obtain ⟨ha, hm₁, hw⟩ := hx.ok hm h1
    obtain ⟨hb, hm₂, hw'⟩ := (hk a ha).ok ⟨hm₁, hw.fits hm.fits⟩ h2
    exact ⟨hb, hm₂, hw.trans hw'⟩
  · obtain h1 | ⟨a, m₁, h1, h2⟩ := bind_error_iff.1 h
    · exact hx.error hm h1
    · obtain ⟨ha, hm₁, hw⟩ := hx.ok hm h1
      obtain ⟨hm₂, hw'⟩ := (hk a ha).error ⟨hm₁, hw.fits hm.fits⟩ h2
      exact ⟨hm₂, hw.trans hw'⟩

theorem look {k : Machine → Exec γ} {l : Machine → Exec δ}
    (hk : ∀ m, m.Hosts g R → Blind g R writes σ P (k m) (l (g.machine m))) :
    Blind g R writes σ P (get >>= k) (get >>= l) :=
  ⟨fun {m} hm => (hk m hm).graft hm, fun {m _ _} hm h => (hk m hm).ok hm h, fun {m _ _} hm h => (hk m hm).error hm h⟩

theorem modify {f f' : Machine → Machine} (hg : ∀ m, f' (g.machine m) = g.machine (f m))
    (hw : ∀ m, m.Within R → (f m).Within R) (hworld : ∀ m, (f m).world = m.world) :
    BlindSame g R writes (modify f) (modify f') := by
  refine ⟨fun {m} hm => ?_, fun {m _ _} hm h => ?_, fun _ h => by cases h⟩
  · show EStateM.Result.ok () (f' (g.machine m)) = .ok () (g.machine (f m))
    rw [hg]
  · cases h
    exact ⟨trivial, hw m hm.within, by rw [hworld]; exact .refl _⟩

theorem holding {vs : List Value} {x : Exec α} {y : Exec β} (hv : ∀ v ∈ vs, v.Within R)
    (hx : Blind g R writes ρ Q x y) : Blind g R writes ρ Q (holding vs x) (holding (vs.map g.value) y) := by
  refine ⟨fun {m} hm => ?_, fun {m a m₂} hm h => ?_, fun {m s m₂} hm h => ?_⟩
  · exact ending_holding (hx.graft hm) vs
  · obtain ⟨m₁, h1, rfl⟩ := holding_ok_iff.1 h
    obtain ⟨ha, hm₁, hw⟩ := hx.ok hm h1
    exact ⟨ha, hm₁.letGo hv, by rw [Machine.letGo_world]; exact hw⟩
  · obtain ⟨m₁, h1, rfl⟩ := holding_error_iff.1 h
    obtain ⟨hm₁, hw⟩ := hx.error hm h1
    exact ⟨hm₁.letGo hv, by rw [Machine.letGo_world]; exact hw⟩

theorem plain {x y : Exec Unit} (hx : BlindSame g R writes x y) : BlindSame g R writes (plain x) (plain y) :=
  hx.bind fun _ _ => .pure rfl trivial

end Blind

/-! ## Operands and cells -/

theorem blind_check {r : Except Fault α} {r' : Except Fault β} (h : Renamed ρ Q r r') :
    Blind g R writes ρ Q (check r) (check r') := by
  rw [h.eq]
  cases hr : r with
  | ok a => exact .pure rfl (h.holds hr)
  | error f => exact .fault f

theorem blind_require (a : Option α) : BlindSame g R writes (require a) (require a) := by
  cases a with
  | some a => exact .pure rfl trivial
  | none => exact .throw _

theorem blind_top : Blind g R writes g.frame (Frame.Within R) top top := by
  refine .look fun m hm => ?_
  have hstack : (g.machine m).stack = m.stack.map g.frame := rfl
  rw [hstack]
  have hframes := hm.within.stack
  cases hst : m.stack with
  | nil => exact .fault _
  | cons f rest =>
    rw [hst] at hframes
    exact .pure rfl (hframes f List.mem_cons_self)

theorem blind_setEval {eval : List Value} (h : ∀ v ∈ eval, v.Within R) :
    BlindSame g R writes (setEval eval) (setEval (eval.map g.value)) := by
  refine .modify (fun m => ?_) (fun m hm => ?_) fun m => ?_
  · obtain ⟨image, limits, pc, stack, executed, result, suspended, loose, world⟩ := m
    cases stack <;> rfl
  · have hframes := hm.stack
    cases hst : m.stack with
    | nil => exact hm
    | cons f rest =>
      rw [hst] at hframes
      obtain ⟨hf, hrest⟩ := List.forall_mem_cons.1 hframes
      exact { hm with stack := List.forall_mem_cons.2 ⟨{ hf with eval := h }, hrest⟩ }
  · cases m.stack <;> rfl

theorem blind_push {v : Value} (hv : v.Within R) : BlindSame g R writes (push v) (push (g.value v)) :=
  blind_top.bind fun _ hf => blind_setEval (List.forall_mem_cons.2 ⟨hv, hf.eval⟩)

theorem blind_pop : Blind g R writes g.value (Value.Within R) pop pop := by
  refine blind_top.bind fun f hf => ?_
  have heval : (g.frame f).eval = f.eval.map g.value := rfl
  rw [heval]
  cases he : f.eval with
  | nil => exact .fault _
  | cons v rest =>
    obtain ⟨hv, hrest⟩ := List.forall_mem_cons.1 (he ▸ hf.eval)
    exact (blind_setEval hrest).bind fun _ _ => .pure rfl hv

theorem blind_popMany (n : Nat) :
    Blind g R writes (List.map g.value) (fun vs => ∀ v ∈ vs, v.Within R) (popMany n) (popMany n) := by
  refine blind_top.bind fun f hf => ?_
  have heval : (g.frame f).eval = f.eval.map g.value := rfl
  dsimp only
  rw [heval, List.length_map, ← List.map_drop, ← List.map_take, ← List.map_reverse]
  have hrest : Blind g R writes (List.map g.value) (fun vs => ∀ v ∈ vs, v.Within R)
      (do setEval (f.eval.drop n); return (f.eval.take n).reverse)
      (do setEval ((f.eval.drop n).map g.value); return (f.eval.take n).reverse.map g.value) :=
    (blind_setEval fun v hv => hf.eval v (List.mem_of_mem_drop hv)).bind fun _ _ =>
      .pure rfl fun v hv => hf.eval v (List.mem_of_mem_take (List.mem_reverse.1 hv))
  split
  · exact .fault_bind _
  · exact hrest

theorem blind_letGo {vs : List Value} (hv : ∀ v ∈ vs, v.Within R) :
    BlindSame g R writes (letGo vs) (letGo (vs.map g.value)) :=
  .modify (fun m => g.letGo_machine m vs) (fun _ hm => hm.letGo hv) fun m => m.letGo_world vs

theorem blind_popAs {as : Value → Except Fault α} {as' : Value → Except Fault β}
    (has : ∀ v, v.Within R → Renamed ρ Q (as v) (as' (g.value v))) : Blind g R writes ρ Q (popAs as) (popAs as') :=
  blind_pop.bind fun v hv => (blind_letGo (List.forall_mem_singleton.2 hv)).bind fun _ _ => blind_check (has v hv)

end Exec

/-! ## Loads and stores -/

theorem map_modify_comm {α β : Type} {view : α → β} {f : α → α} {f' : β → β} (h : ∀ a, f' (view a) = view (f a)) :
    ∀ (l : List α) (i : Nat), (l.map view).modify i f' = (l.modify i f).map view
  | [], i => by simp
  | a :: l, 0 => by simp [h]
  | a :: l, i + 1 => by simp [map_modify_comm h l i]

namespace Graft

variable {m : Machine} {r : Reference} {v : Value}

theorem frame?_machine (m : Machine) (n : Nat) : (g.machine m).frame? n = (m.frame? n).map g.frame := by
  have hplace : (g.machine m).place? n = m.place? n := by
    unfold Machine.place? Machine.depth machine
    rw [List.length_map]
  rw [Machine.frame?, Machine.frame?, hplace]
  cases m.place? n with
  | none => rfl
  | some i => exact List.getElem?_map ..

theorem localOf_frame (f : Frame) (slot : Nat) :
    Machine.localOf (g.frame f) slot = (Machine.localOf f slot).map (·.map g.value) := by
  have hslot : (g.frame f).locals[slot]? = (f.locals[slot]?).map (·.map g.value) := List.getElem?_map ..
  rw [Machine.localOf, Machine.localOf, hslot]
  cases f.locals[slot]? <;> rfl

theorem paramOf_frame (f : Frame) (slot : Nat) :
    Machine.paramOf (g.frame f) slot = (Machine.paramOf f slot).map g.value := by
  have hslot : (g.frame f).params[slot]? = (f.params[slot]?).map g.value := List.getElem?_map ..
  rw [Machine.paramOf, Machine.paramOf, hslot]
  cases f.params[slot]? <;> rfl

/-- **Cells are found by the names they go by.** -/
theorem peek_machine (hf : g.Fits m.world.heap) (r : Reference) :
    (g.machine m).peek (g.reference r) = (m.peek r).map (·.map g.value) := by
  cases r with
  | global slot | «local» frame slot =>
    simp only [reference, Machine.peek, frame?_machine]
    cases m.frame? _ with
    | none => rfl
    | some f => exact localOf_frame f slot
  | param frame slot =>
    simp only [reference, Machine.peek, frame?_machine]
    cases m.frame? frame with
    | none => rfl
    | some f =>
      simp only [Option.map_some, paramOf_frame]
      cases Machine.paramOf f slot <;> rfl
  | element id index =>
    have hitems : ((g.machine m).world.heap.items? (g.array id)).getD #[] = _ := g.items_heap hf id
    simp only [reference, Machine.peek, hitems, Array.getElem?_map, Array.size_map]
    cases ((m.world.heap.items? id).getD #[])[index]? <;> rfl
  | field id index =>
    have hfields : ((g.machine m).world.heap.fields? (g.object id)).getD #[] = _ := g.fields_heap hf id
    simp only [reference, Machine.peek, hfields, Array.getElem?_map]
    cases ((m.world.heap.fields? id).getD #[])[index]? <;> rfl

theorem describe?_machine (m : Machine) (r : Reference) : (g.machine m).describe? (g.reference r) = m.describe? r := by
  have hnames : ∀ frame names, (g.machine m).namesOf? frame names = m.namesOf? frame names := by
    intro frame names
    rw [Machine.namesOf?, Machine.namesOf?, frame?_machine]
    cases m.frame? frame <;> rfl
  cases r with
  | «local» frame slot => simp only [reference, Machine.describe?, hnames]
  | param frame slot => simp only [reference, Machine.describe?, hnames]
  | _ => rfl

theorem load_machine (hf : g.Fits m.world.heap) (r : Reference) :
    (g.machine m).load (g.reference r) = (m.load r).map g.value := by
  rw [Machine.load, Machine.load, peek_machine hf, describe?_machine]
  cases m.peek r with
  | error e => rfl
  | ok o =>
    cases o with
    | some v => rfl
    | none => cases m.describe? r <;> rfl

theorem modifyFrame_machine {f f' : Frame → Frame} (h : ∀ fr, f' (g.frame fr) = g.frame (f fr)) (m : Machine)
    (n : Nat) : (g.machine m).modifyFrame n f' = g.machine (m.modifyFrame n f) := by
  have hplace : (g.machine m).place? n = m.place? n := by
    unfold Machine.place? Machine.depth machine
    rw [List.length_map]
  unfold Machine.modifyFrame
  rw [hplace]
  cases m.place? n with
  | none => rfl
  | some i => exact congrArg (fun stack => { g.machine m with stack := stack }) (map_modify_comm h m.stack i)

theorem write_machine (hf : g.Fits m.world.heap) (r : Reference) (v : Value) :
    (g.machine m).write (g.reference r) (g.value v) = g.machine (m.write r v) := by
  cases r with
  | global slot | «local» frame slot =>
    refine modifyFrame_machine (fun fr => ?_) m _
    simp [Graft.frame, List.map_set]
  | param frame slot =>
    refine modifyFrame_machine (fun fr => ?_) m _
    simp [Graft.frame, List.map_set]
  | element id index =>
    exact congrArg (fun h => { g.machine m with world := { g.world m.world with heap := h } })
      (g.setElement_heap hf id index v)
  | field id index =>
    exact congrArg (fun h => { g.machine m with world := { g.world m.world with heap := h } })
      (g.setField_heap hf id index v)

theorem store_machine (hf : g.Fits m.world.heap) (r : Reference) (v : Value) :
    (g.machine m).store (g.reference r) (g.value v) = (m.store r v).map g.machine := by
  rw [Machine.store_eq_peek, Machine.store_eq_peek, peek_machine hf]
  cases m.peek r with
  | error e => rfl
  | ok old =>
    have hold : (old.map g.value).toList = old.toList.map g.value := by cases old <;> rfl
    simp only [Except.map, write_machine hf, hold, letGo_machine]

end Graft

namespace Machine

variable {m m₁ : Machine} {r : Reference} {v : Value}

theorem Within.frame? (hm : m.Within R) {n : Nat} {f : Frame} (hf : m.frame? n = some f) : f.Within R := by
  obtain ⟨i, -, hi⟩ := Option.bind_eq_some_iff.1 hf
  exact hm.stack f (List.mem_of_getElem? hi)

theorem within_localOf {f : Frame} (hf : f.Within R) {slot : Nat} (h : localOf f slot = .ok (some v)) : v.Within R := by
  unfold localOf at h
  split at h <;> cases h
  rename_i hs
  exact hf.locals v (List.mem_of_getElem? hs)

/-- **What a cell holds is within the region** that its name is in. -/
theorem Within.peek (hm : m.Within R) (hr : (Value.ref r).Within R) (h : m.peek r = .ok (some v)) : v.Within R := by
  cases r with
  | global slot | «local» frame slot =>
    simp only [Machine.peek] at h
    split at h
    · rename_i f hf
      exact within_localOf (hm.frame? hf) h
    · cases h
  | param frame slot =>
    simp only [Machine.peek] at h
    split at h
    · rename_i f hf
      unfold paramOf at h
      split at h <;> cases h
      rename_i hs
      exact (hm.frame? hf).params v (List.mem_of_getElem? hs)
    · cases h
  | element id index =>
    simp only [Machine.peek] at h
    split at h <;> cases h
    rename_i hi
    exact hm.closed _ (hr _ rfl) v (Array.mem_toList_iff.2 (Array.mem_of_getElem? hi))
  | field id index =>
    simp only [Machine.peek] at h
    split at h <;> cases h
    rename_i hi
    exact hm.closed _ (hr _ rfl) v (List.mem_filterMap.2 ⟨_, Array.mem_toList_iff.2 (Array.mem_of_getElem? hi), rfl⟩)

theorem Within.load (hm : m.Within R) (hr : (Value.ref r).Within R) (h : m.load r = .ok v) : v.Within R := by
  unfold Machine.load at h
  split at h
  · cases h
  · cases h
    rename_i hp
    exact hm.peek hr hp
  · split at h <;> cases h

theorem Within.modifyFrame (hm : m.Within R) {f : Frame → Frame} (hf : ∀ fr, fr.Within R → (f fr).Within R) (n : Nat) :
    (m.modifyFrame n f).Within R := by
  unfold Machine.modifyFrame
  split
  · rename_i i _
    refine { hm with stack := fun fr hfr => ?_ }
    obtain ⟨j, hj⟩ := List.getElem?_of_mem hfr
    rw [List.getElem?_modify] at hj
    obtain ⟨fr', hfr', rfl⟩ := Option.map_eq_some_iff.1 hj
    have hmem := hm.stack fr' (List.mem_of_getElem? hfr')
    split
    · exact hf fr' hmem
    · exact hmem
  · exact hm

/-- **Writing a value of the region keeps a machine within it.** -/
theorem Within.write (hm : m.Within R) (hv : v.Within R) (r : Reference) : (m.write r v).Within R := by
  cases r with
  | global slot | «local» frame slot =>
    refine Within.modifyFrame (f := fun f => { f with locals := f.locals.set slot (some v) }) hm
      (fun fr hfr => { hfr with locals := fun u hu => ?_ }) _
    rcases List.mem_or_eq_of_mem_set hu with hu | hu
    · exact hfr.locals u hu
    · cases hu
      exact hv
  | param frame slot =>
    refine Within.modifyFrame (f := fun f => { f with params := f.params.set slot v }) hm
      (fun fr hfr => { hfr with params := fun u hu => ?_ }) _
    rcases List.mem_or_eq_of_mem_set hu with hu | rfl
    · exact hfr.params u hu
    · exact hv
  | element id index => exact { hm with closed := hm.closed.setElement hv id index }
  | field id index => exact { hm with closed := hm.closed.setField hv id index }

theorem Within.store (hm : m.Within R) (hr : (Value.ref r).Within R) (hv : v.Within R) (h : m.store r v = .ok m₁) :
    m₁.Within R := by
  rw [store_eq_peek] at h
  split at h <;> cases h
  rename_i old hold
  refine (hm.write hv r).letGo fun u hu => ?_
  rw [Option.mem_toList] at hu
  cases hu
  exact hm.peek hr hold

theorem overwritten_write (m : Machine) (r : Reference) (v : Value)
    (hw : writes = false → (Value.ref r).storage? = none) : m.world.Overwritten writes (m.write r v).world := by
  have hframe : ∀ n f, m.world.Overwritten writes (m.modifyFrame n f).world := by
    intro n f
    have hworld : (m.modifyFrame n f).world = m.world := by
      unfold modifyFrame
      split <;> rfl
    rw [hworld]
    exact .refl _
  cases r with
  | global slot | «local» frame slot => exact hframe _ _
  | param frame slot => exact hframe _ _
  | element id index => exact ⟨rfl, Array.size_modify, rfl, fun h => by cases hw h⟩
  | field id index => exact ⟨rfl, rfl, Array.size_modify, fun h => by cases hw h⟩

theorem overwritten_store (hw : writes = false → (Value.ref r).storage? = none) (h : m.store r v = .ok m₁) :
    m.world.Overwritten writes m₁.world := by
  rw [store_eq_peek] at h
  split at h <;> cases h
  rw [letGo_world]
  exact overwritten_write m r v hw

end Machine

namespace Exec

variable {α β : Type}

theorem blind_load {r : Reference} (hr : (Value.ref r).Within R) :
    Blind g R writes g.value (Value.Within R) (load r) (load (g.reference r)) := by
  refine .look fun m hm => ?_
  rw [Graft.load_machine hm.fits]
  cases h : m.load r with
  | ok v => exact .pure rfl (hm.within.load hr h)
  | error s => exact .throw s

theorem blind_store {r : Reference} {v : Value} (hr : (Value.ref r).Within R) (hv : v.Within R)
    (hw : writes = false → (Value.ref r).storage? = none) :
    BlindSame g R writes (store r v) (store (g.reference r) (g.value v)) := by
  refine ⟨fun {m} hm => ?_, fun {m _ m₁} hm h => ?_, fun {m s m₁} hm h => ?_⟩
  · rw [store_eq, store_eq, Graft.store_machine hm.fits]
    cases m.store r v with
    | ok m₁ => rfl
    | error f => exact congrArg (EStateM.Result.error _) (g.letGo_machine m [v])
  · rw [store_eq] at h
    split at h <;> cases h
    rename_i hs
    exact ⟨trivial, hm.within.store hr hv hs, m.overwritten_store hw hs⟩
  · rw [store_eq] at h
    split at h <;> cases h
    exact ⟨hm.within.letGo (List.forall_mem_singleton.2 hv), by rw [Machine.letGo_world]; exact .refl _⟩

theorem blind_topNumber : BlindSame g R writes topNumber topNumber := by
  refine .look fun m _ => ?_
  have hdepth : (g.machine m).depth = m.depth := List.length_map ..
  dsimp only
  rw [hdepth]
  split
  · exact .fault_bind _
  · exact .pure rfl trivial

theorem blind_heap : Blind g R writes g.heap (fun h => h.Closed R ∧ g.Fits h) heap heap :=
  .look fun _ hm => .pure rfl ⟨hm.within.closed, hm.fits⟩

theorem blind_param (slot : Nat) : Blind g R writes g.value (Value.Within R) (param slot) (param slot) := by
  refine blind_top.bind fun f hf => ?_
  have hparam : (g.frame f).params[slot]? = (f.params[slot]?).map g.value := List.getElem?_map ..
  rw [hparam]
  cases h : f.params[slot]? with
  | some v => exact .pure rfl (hf.params v (List.mem_of_getElem? h))
  | none => exact .fault _

theorem blind_field {cls : ClassId} {object : ObjectId} {index : Nat} (ho : R (.object object)) :
    Blind g R writes g.value (Value.Within R) (field cls object index) (field cls (g.object object) index) := by
  refine blind_heap.bind fun h hh => ?_
  dsimp only
  rw [g.fields_heap hh.2, Array.getElem?_map]
  cases hi : ((h.fields? object).getD #[])[index]? with
  | none => exact .fault _
  | some o =>
    cases o with
    | none => exact .look fun m _ => .fault _
    | some v =>
      have hmem := Array.mem_toList_iff.2 (Array.mem_of_getElem? hi)
      exact .pure rfl (hh.1 _ ho v (List.mem_filterMap.2 ⟨_, hmem, rfl⟩))

theorem blind_pointee (slot : Nat) : Blind g R writes g.value (Value.Within R) (pointee slot) (pointee slot) := by
  refine (blind_param slot).bind fun v hv => (blind_check (v.renamed_asReference g hv)).bind fun r hr =>
    .look fun m hm => ?_
  rw [Graft.load_machine hm.fits]
  cases h : m.load r with
  | ok v => exact .pure rfl (hm.within.load hr h)
  | error s =>
    have hname : Blind g R writes g.value (Value.Within R)
        (do
          let scope ← require m.image.scopes[(← top).scope]?
          fault (.readBeforeAssignment .param (scope.params[slot]?.getD "")))
        (do
          let scope ← require (g.machine m).image.scopes[(← top).scope]?
          fault (.readBeforeAssignment .param (scope.params[slot]?.getD ""))) :=
      blind_top.bind fun f _ => (blind_require _).bind fun scope _ => .fault _
    cases s with
    | abort a => exact .throw _
    | fault f => cases f <;> first | exact hname | exact .throw _

theorem blind_elementRef {kind : Container} {container : Value} {index : Int64} (hc : container.Within R) :
    Blind g R writes g.reference (fun r => (Value.ref r).Within R) (elementRef kind container index)
      (elementRef kind (g.value container) index) := by
  cases kind with
  | string => exact .fault _
  | array =>
    refine (blind_check (container.renamed_asArray g hc)).bind fun id hid => blind_heap.bind fun h hh => ?_
    rw [g.items_heap hh.2, Array.size_map]
    exact (blind_check (.same _)).bind fun i _ => .pure rfl fun s hs => by cases hs; exact hid
  | object =>
    refine (blind_check (container.renamed_asObject g hc)).bind fun p hp => blind_heap.bind fun h hh => ?_
    rw [g.fields_heap hh.2, Array.size_map]
    exact (blind_check (.same _)).bind fun i _ => .pure rfl fun s hs => by cases hs; exact hp

theorem blind_elementVal {kind : Container} {container : Value} {index : Int64} (hc : container.Within R) :
    Blind g R writes g.value (Value.Within R) (elementVal kind container index)
      (elementVal kind (g.value container) index) := by
  cases kind with
  | string =>
    exact (blind_check (container.same_asStr g)).bind fun bytes _ => (blind_check (.same _)).bind fun i _ =>
      .pure rfl (Value.within_of_none rfl)
  | array =>
    refine blind_heap.bind fun h hh => (blind_check (container.renamed_asArray g hc)).bind fun id hid => ?_
    dsimp only
    rw [g.items_heap hh.2, Array.size_map]
    refine (blind_check (.same _)).bind fun i _ => ?_
    generalize hitems : (h.items? id).getD #[] = items
    have hcell : (items.map g.value).getD i (.bool false) = g.value (items.getD i (.bool false)) := by
      rw [Array.getD_eq_getD_getElem?, Array.getD_eq_getD_getElem?, Array.getElem?_map]
      cases items[i]? <;> rfl
    refine .pure hcell.symm ?_
    rw [Array.getD_eq_getD_getElem?]
    cases hi : items[i]? with
    | none => exact Value.within_of_none rfl
    | some v =>
      refine hh.1 _ hid v ?_
      rw [Heap.inside, hitems]
      exact Array.mem_toList_iff.2 (Array.mem_of_getElem? hi)
  | object =>
    refine (blind_check (container.renamed_asObject g hc)).bind fun p hp => blind_heap.bind fun h hh => ?_
    rw [g.fields_heap hh.2, Array.size_map]
    exact (blind_check (.same _)).bind fun i _ => blind_field hp

theorem blind_jump (label : LabelId) : BlindSame g R writes (Exec.jump label) (Exec.jump label) :=
  .look fun _ _ => (blind_require _).bind fun _ _ => .pure rfl trivial

theorem blind_method {receiver : Value} (hr : receiver.Within R) (slot : Nat) :
    BlindSame g R writes (method receiver slot) (method (g.value receiver) slot) := by
  refine (blind_check (receiver.renamed_asObject g hr)).bind fun p _ => .look fun m _ => ?_
  dsimp only [Prod.map, Graft.machine, id]
  split
  · exact .pure rfl trivial
  · exact .fault _

end Exec

end PseudoVm
