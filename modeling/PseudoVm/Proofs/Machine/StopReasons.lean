import PseudoVm.Proofs.Machine.ArrayClone
import PseudoVm.Proofs.Machine.TableSafety
/-!
# Machine.StopReasons: why a step stops

The limit on instructions stops a step before its instruction is begun, and no instruction stops for it
(`step_limit_iff`).  Beside faults, an instruction may stop because an array contains itself, because an object is larger
than a block can be, or because the image lacks an entry (`Exec.op_stops`); a program with a valid image that has none
of the first two stops with a fault, and the fault can be reported (`failure?_eq_report`).
-/
namespace PseudoVm

/-- Whether an instruction stops with a fault that is not the limit's, or because a table of the image lacks an entry. -/
def Stop.isTame : Stop → Bool
  | .fault .instructionLimit | .abort .deadlock | .abort .noRoom => false
  | _ => true

theorem Fault.isTame_of_isPlain {f : Fault} (h : f.isPlain = true) : (Stop.fault f).isTame = true := by
  cases f <;> first | rfl | cases h

theorem Machine.isTame_of_load {m : Machine} {r : Reference} {s : Stop} (h : m.load r = .error s) :
    s.isTame = true := by
  unfold load at h
  split at h
  · rename_i f hf
    cases h
    exact Fault.isTame_of_isPlain (Fault.isPlain_of_isOfCell (isOfCell_of_peek hf))
  · cases h
  · split at h <;> cases h <;> rfl

namespace Exec

variable {α β : Type}

/-- **It stops neither for the limit nor for want of room or of an end.** -/
structure Tame (x : Exec α) : Prop where
  error : ∀ {m s m'}, x m = .error s m' → s.isTame = true

namespace Tame

theorem pure (a : α) : Tame (pure a : Exec α) := ⟨fun h => by cases h⟩

theorem throw {s : Stop} (hs : s.isTame = true) : Tame (throw s : Exec α) := ⟨fun h => by cases h; exact hs⟩

theorem fault {f : Fault} (hf : (Stop.fault f).isTame = true) : Tame (Exec.fault f : Exec α) := throw hf

theorem get : Tame (get : Exec Machine) := ⟨fun h => by cases h⟩

theorem modify (g : Machine → Machine) : Tame (modify g : Exec Unit) := ⟨fun h => by cases h⟩

theorem bind {x : Exec α} {k : α → Exec β} (hx : Tame x) (hk : ∀ a, Tame (k a)) : Tame (x >>= k) := by
  refine ⟨fun h => ?_⟩
  obtain h1 | ⟨a, m₁, -, h2⟩ := bind_error_iff.1 h
  · exact hx.error h1
  · exact (hk a).error h2

theorem holding {vs : List Value} {x : Exec α} (hx : Tame x) : Tame (holding vs x) := by
  refine ⟨fun h => ?_⟩
  obtain ⟨m₁, h1, -⟩ := holding_error_iff.1 h
  exact hx.error h1

end Tame

/-! ## Operands and cells -/

theorem tame_require (a : Option α) : Tame (require a) := by
  unfold require
  split
  · exact .pure _
  · exact .throw rfl

theorem tame_top : Tame top := by
  refine Tame.get.bind fun m => ?_
  split
  · exact .pure _
  · exact .fault rfl

theorem tame_setEval (eval : List Value) : Tame (setEval eval) := .modify _

theorem tame_letGo (vs : List Value) : Tame (letGo vs) := .modify _

theorem tame_load (r : Reference) : Tame (load r) := by
  refine ⟨fun {m s m'} h => ?_⟩
  rw [load_eq] at h
  split at h <;> cases h
  rename_i hs
  exact Machine.isTame_of_load hs

theorem tame_store (r : Reference) (v : Value) : Tame (store r v) := by
  refine ⟨fun {m s m'} h => ?_⟩
  rw [store_eq] at h
  split at h <;> cases h
  rename_i hf
  exact Fault.isTame_of_isPlain (Fault.isPlain_of_isOfCell (Machine.isOfCell_of_store hf))

theorem tame_topNumber : Tame topNumber := by
  refine Tame.get.bind fun m => ?_
  dsimp only
  split
  · exact .bind (.fault rfl) fun _ => .pure _
  · exact .pure _

theorem tame_heap : Tame heap := Tame.get.bind fun _ => .pure _

theorem tame_setHeap (h : Heap) : Tame (modify (·.setHeap h) : Exec Unit) := .modify _

theorem tame_field (cls : ClassId) (object : ObjectId) (index : Nat) : Tame (field cls object index) := by
  refine tame_heap.bind fun h => ?_
  split
  · exact .pure _
  · exact Tame.get.bind fun _ => .fault rfl
  · exact .fault rfl

/-- **Instructions are tame as far as their parts are.** -/
theorem compositional_tame : Compositional fun _ x => Tame x where
  pure := .pure
  bind := .bind
  holding := .holding
  fault hf := .fault (Fault.isTame_of_isPlain hf)
  top := tame_top
  setEval := tame_setEval
  letGo := tame_letGo
  load := tame_load
  store := tame_store
  topNumber := tame_topNumber
  heap := tame_heap
  setHeap := tame_setHeap
  field := tame_field

theorem tame_push (v : Value) : Tame (push v) := compositional_tame.push v

theorem tame_popMany (n : Nat) : Tame (popMany n) := compositional_tame.popMany n

theorem tame_pointee (slot : Nat) : Tame (pointee slot) := by
  refine (compositional_tame.param slot).bind fun v =>
    (compositional_tame.check (ordinary_asReference v)).bind fun r => Tame.get.bind fun m => ?_
  split
  · exact .pure _
  · exact tame_top.bind fun f => (tame_require _).bind fun scope => .fault rfl
  · rename_i hs
    exact .throw (Machine.isTame_of_load hs)

/-! ## Calls and returns -/

theorem tame_jump (label : LabelId) : Tame (Exec.jump label) :=
  Tame.get.bind fun _ => (tame_require _).bind fun _ => .pure _

theorem tame_enter (target : Nat) (scope : ScopeId) (args : List Value) : Tame (enter target scope args) := by
  refine ⟨fun {m s m'} h => ?_⟩
  rw [enter_eq] at h
  split at h
  · cases h
    rfl
  · split at h <;> cases h
    rfl

theorem tame_leave (nval : Nat) : Tame (leave nval) := by
  refine ⟨fun {m s m'} h => ?_⟩
  rw [leave_eq] at h
  split at h
  · cases h
    rfl
  · split at h
    · cases h
      rfl
    · split at h <;> cases h

theorem tame_stop (nval : Nat) : Tame (stop nval) := by
  refine ⟨fun {m s m'} h => ?_⟩
  rw [stop_eq] at h
  split at h
  · cases h
    rfl
  · split at h <;> cases h
    rfl

theorem tame_method (receiver : Value) (slot : Nat) : Tame (method receiver slot) := by
  refine (compositional_tame.check (ordinary_asObject receiver)).bind fun p => Tame.get.bind fun m => ?_
  split
  · exact .pure _
  · exact .fault rfl

theorem tame_call (label : LabelId) (scope : ScopeId) (nargs : Nat) : Tame (op (.call label scope nargs)) :=
  (tame_popMany nargs).bind fun _ => .holding <| Tame.get.bind fun _ => (tame_require _).bind fun _ =>
    tame_enter _ scope _

theorem tame_vcall (cls : ClassId) (slot nargs : Nat) : Tame (op (.vcall cls slot nargs)) := by
  refine (tame_popMany nargs).bind fun args => .holding ?_
  split
  · exact .fault rfl
  · exact (tame_method _ slot).bind fun _ => Tame.get.bind fun _ => (tame_require _).bind fun _ => tame_enter _ _ _

/-! ## Instructions -/

theorem copyArray_stops {m m' : Machine} {s : Stop} {dims : Nat} (h : copyArray dims m = .error s m') :
    s.isTame = true ∨ s = .abort .deadlock ∧ (m.Intact → ¬ m.world.heap.Grounded) := by
  obtain hp | ⟨v, m₁, hp, h1⟩ := bind_error_iff.1 h
  · exact .inl (compositional_tame.pop.error hp)
  obtain ⟨m₂, h2, -⟩ := holding_error_iff.1 h1
  obtain hc | ⟨a, m₃, hc, h3⟩ := bind_error_iff.1 h2
  · exact .inl ((compositional_tame.check (ordinary_asArray v)).error hc)
  obtain hh | ⟨heap, m₄, hh, h4⟩ := bind_error_iff.1 h3
  · exact .inl (tame_heap.error hh)
  -- the value was an operand, and the heap is as it was
  obtain ⟨hworld, hmem⟩ : m₁.world = m.world ∧ v ∈ m.values := by
    rw [pop_eq] at hp
    split at hp
    · cases hp
    rename_i f rest hst
    split at hp <;> cases hp
    rename_i eval heval
    refine ⟨rfl, List.mem_append_left _ (List.mem_append_left _ (List.mem_flatMap.2 ⟨f, ?_, ?_⟩))⟩
    · simp [hst]
    · simp [Frame.values, heval]
  have hheap : heap = m.world.heap := by
    cases hv : v.asArray <;> rw [hv] at hc <;> cases hc
    cases hh
    rw [hworld]
  cases hcopy : heap.copy? dims v with
  | some c =>
    rw [hcopy] at h4
    exact .inl (((tame_setHeap c.2).bind fun _ => tame_push c.1).error h4)
  | none =>
    rw [hcopy] at h4
    cases h4
    refine .inr ⟨rfl, fun hm hg => ?_⟩
    have hends := (Heap.copy?_isSome_iff (hm.supports hmem) dims).2 ((hg.unfolds v).not_revisits dims)
    rw [← hheap, hcopy] at hends
    cases hends

theorem callLibrary_stops {m m' : Machine} {s : Stop} {index nargs : Nat} (h : callLibrary index nargs m = .error s m') :
    s.isTame = true ∨ s = .abort .deadlock ∧ ¬ m.world.heap.Grounded := by
  obtain hp | ⟨args, m₁, hp, h1⟩ := bind_error_iff.1 h
  · exact .inl ((tame_popMany nargs).error hp)
  obtain ⟨m₂, h2, -⟩ := holding_error_iff.1 h1
  have hworld : m₁.world = m.world := by
    obtain ⟨f, rest, -, -, -, rfl⟩ := popMany_ok hp
    rfl
  cases hf : LibraryFunction.ofIndex? index with
  | none =>
    rw [hf] at h2
    cases h2
    exact .inl rfl
  | some f =>
    rw [hf] at h2
    obtain ha | ⟨v, m₃, -, h3⟩ := bind_error_iff.1 h2
    · rw [act_eq] at ha
      split at ha <;> cases ha
      rename_i w hw
      refine (Library.call_stops f args _ _ _ hw).imp (fun ⟨f', hs, hf'⟩ => ?_) fun ⟨hs, hnone⟩ => ⟨hs, fun hg => ?_⟩
      · rw [hs]
        exact Fault.isTame_of_isPlain (Fault.isPlain_of_isOfOperation hf')
      · have hshown : (args.mapM m₁.world.heap.display?).isSome :=
          isSome_mapM fun v _ => Heap.display?_isSome_iff.2 (by rw [hworld]; exact hg.unfolds v)
        rw [Library.displayAll, Option.map_eq_none_iff] at hnone
        rw [hnone] at hshown
        cases hshown
    · cases v with
      | none => cases h3
      | some v => exact .inl (((tame_push v).bind fun _ => .pure Flow.next).error h3)

theorem newObject_stops {m m' : Machine} {s : Stop} {cls : ClassId} {nfields : Nat}
    (h : newObject cls nfields m = .error s m') :
    s.isTame = true ∨ s = .abort .noRoom ∧ Bound.block < nfields * Heap.fieldSize := by
  unfold newObject at h
  split at h
  · rename_i hlarge
    obtain ht | ⟨_, _, ht, -⟩ := bind_error_iff.1 h <;> cases ht
    exact .inr ⟨rfl, hlarge⟩
  · refine .inl (Tame.error ?_ h)
    exact tame_heap.bind fun _ => (tame_setHeap _).bind fun _ => tame_push _

/-- **Why an instruction stops**: with a fault of its own, for an array that contains itself, or for an object that is
larger than a block can be. -/
theorem op_stops {o : Op} {m m' : Machine} {s : Stop} (h : op o m = .error s m') : s.isTame = true ∨
    (s = .abort .deadlock ∧ (m.Intact → ¬ m.world.heap.Grounded)) ∨
    s = .abort .noRoom ∧ ∃ cls nfields, o = .objNew cls nfields ∧ Bound.block < nfields * Heap.fieldSize := by
  have hplain : ∀ {x : Exec Unit}, plain x m = .error s m' → x m = .error s m' := fun h => by
    obtain hx | ⟨_, _, _, hnext⟩ := bind_error_iff.1 h
    · exact hx
    · cases hnext
  by_cases hb : o.isBasic = true
  · exact .inl ((compositional_tame.op tame_pointee o hb).error h)
  cases o <;> simp only [Op.isBasic, not_true_eq_false] at hb
  case arrayClone dims => exact (copyArray_stops (hplain h)).imp_right .inl
  case libCall index nargs =>
    obtain htame | ⟨hs, hg⟩ := callLibrary_stops h
    · exact .inl htame
    · exact .inr (.inl ⟨hs, fun _ => hg⟩)
  case objNew cls nfields =>
    obtain htame | ⟨hs, hlarge⟩ := newObject_stops (hplain h)
    · exact .inl htame
    · exact .inr (.inr ⟨hs, cls, nfields, rfl, hlarge⟩)
  all_goals left
  case litStr id =>
    refine Tame.error (Tame.get.bind fun m => ?_) (hplain h)
    split
    · exact tame_push _
    · exact .fault rfl
  case begin => cases h
  case jump label => exact (tame_jump label).error h
  case jumpTrue label => exact (compositional_tame.condJump (tame_jump label) (.pure _)).error h
  case jumpFalse label => exact (compositional_tame.condJump (.pure _) (tame_jump label)).error h
  case call => exact (tame_call _ _ _).error h
  case vcall => exact (tame_vcall _ _ _).error h
  case finish => exact (tame_leave 0).error h
  case ret nval => exact (tame_leave nval).error h
  case halt nval => exact (tame_stop nval).error h

end Exec

namespace Machine

variable {m : Machine}

/-! ## Steps -/

theorem step_at_limit (hd : m.isDone = false) (hl : m.limits.maxInstructions ≤ m.executed) :
    m.step = (some (.fault .instructionLimit), m.settle) := by
  rw [step_eq, hd, if_neg Bool.false_ne_true, if_pos hl]

/-- **Why a step fails**: for the limit before an instruction that it does not admit, or as the instruction does. -/
inductive Hindered (m : Machine) : Stop → Prop
  | limited (hl : m.limits.maxInstructions ≤ m.executed) : Hindered m (.fault .instructionLimit)
  | tame {s : Stop} (hs : s.isTame = true) (hl : m.executed < m.limits.maxInstructions) : Hindered m s
  | looped (hg : m.Intact → ¬ m.world.heap.Grounded) (hl : m.executed < m.limits.maxInstructions) :
    Hindered m (.abort .deadlock)
  | cramped {i : Instruction} {cls : ClassId} {nfields : Nat} (hi : m.current? = some i) (ho : i.op = .objNew cls nfields)
      (hlarge : Bound.block < nfields * Heap.fieldSize) (hl : m.executed < m.limits.maxInstructions) :
    Hindered m (.abort .noRoom)

theorem hindered_step (hd : m.isDone = false) {s : Stop} (hs : m.step.1 = some s) : m.Hindered s := by
  obtain ⟨m', hsteps⟩ := StepsTo.of_stop hs
  cases hsteps with
  | ended hended => rw [hd] at hended; cases hended
  | limited _ hl => exact .limited hl
  | pastEnd _ hl => exact .tame rfl hl
  | failed hi hl ho =>
    obtain hs | ⟨rfl, hg⟩ | ⟨rfl, cls, nfields, hop, hlarge⟩ := Exec.op_stops ho
    · exact .tame hs hl
    · exact .looped (fun hm => hg { hm with }) hl
    · exact .cramped hi hop hlarge hl

/-- **A step stops for the limit just if as many instructions as it admits have been started.** -/
theorem step_limit_iff (hd : m.isDone = false) :
    m.step.1 = some (.fault .instructionLimit) ↔ m.limits.maxInstructions ≤ m.executed := by
  constructor
  · intro hs
    cases hindered_step hd hs with
    | limited hl => exact hl
    | tame hs => cases hs
  · intro hl
    rw [step_at_limit hd hl]

/-- **An instruction that is started counts**, whether it fails or not, and nothing else does. -/
theorem executed_step (hd : m.isDone = false) : m.step.2.executed =
    if m.step.1 = some (.fault .instructionLimit) then m.executed else m.executed + 1 := by
  by_cases hl : m.limits.maxInstructions ≤ m.executed
  · rw [if_pos ((step_limit_iff hd).2 hl), step_at_limit hd hl, settle_executed]
  · rw [if_neg (mt (step_limit_iff hd).1 hl), step_eq, hd, if_neg Bool.false_ne_true, if_neg hl]
    split
    · exact settle_executed _
    rename_i i hi
    split
    · rename_i flow m' ho
      rw [settle_executed, flowTo_executed, (Exec.op_effect i.op ho).fixed.2.2]
      rfl
    · rename_i s m' ho
      rw [settle_executed, (Exec.op_error i.op ho).1.executed]
      rfl

theorem heap_of_fails {s : Stop} (hs : m.step.1 = some s) : m.step.2.world.heap = m.world.heap := by
  obtain ⟨n, w, m₁, -, hw, -, ⟨k, loose, -, rfl⟩, hm⟩ := step_error (show m.step = (some s, m.step.2) by rw [← hs])
  rw [hm, settle_heap]
  exact hw

/-! ## Reports -/

/-- **Every fault can be reported** where the live frames can be shown. -/
theorem exists_report (hn : m.Named) (hu : m.Showable) (f : Fault) : ∃ p, m.report f = .ok p ∧ p.fault = f := by
  cases hr : m.report f with
  | ok p => exact ⟨p, rfl, (report_eq_ok hr).1⟩
  | error a =>
    exfalso
    unfold report at hr
    cases he : m.activations.mapM m.entriesOf with
    | ok entries =>
      rw [he] at hr
      cases hr
    | error e =>
      obtain ⟨act, hact, hfails⟩ := exists_of_mapM_error he
      have hmem := frame_mem_of_mem_activationsFrom hact
      obtain ⟨text, htext⟩ := (exists_frameText_iff hn hmem).2 (hu act.frame hmem)
      unfold entriesOf at hfails
      rw [htext] at hfails
      dsimp only [bind, Except.bind] at hfails
      split at hfails <;> cases hfails

/-- **A step of a sound program that fails does so with a fault**, unless an array contains itself or an object is
larger than a block can be. -/
theorem exists_fault (h : m.Sound) (hm : m.Intact) (hg : m.world.heap.Grounded) (hd : m.isDone = false)
    (hroom : m.executed < m.limits.maxInstructions → ∀ cls nfields, m.current?.map (·.op) = some (.objNew cls nfields) →
      nfields * Heap.fieldSize ≤ Bound.block)
    {s : Stop} (hs : m.step.1 = some s) : ∃ f, s = .fault f := by
  cases hindered_step hd hs with
  | limited => exact ⟨_, rfl⟩
  | looped hloop => exact absurd hg (hloop hm)
  | cramped hi ho hlarge hl => exact absurd (hroom hl _ _ (by rw [hi, Option.map_some, ho])) (Nat.not_le.2 hlarge)
  | tame htame =>
    cases s with
    | fault f => exact ⟨f, rfl⟩
    | abort a =>
      have hmiss := step_missesTable h hs
      cases a with
      | badIndex => exact Bool.noConfusion hmiss
      | deadlock | noRoom => cases htame

/-- **A step that fails with a fault reports it** where the live frames can be shown. -/
theorem exists_failure (hn : m.Named) (hu : m.Showable) {f : Fault} (hs : m.step.1 = some (.fault f)) :
    ∃ p, m.failure? = some (.ok p) ∧ p.fault = f := by
  obtain ⟨k, -, hsteady, -⟩ := step_some (show m.step = (some (.fault f), m.step.2) by rw [← hs])
  have hu' : m.step.2.Showable := hsteady.showable (heap_of_fails hs) hu
  obtain ⟨p, hp, hfault⟩ := exists_report hn.step hu' f
  exact ⟨p, by rw [failure?, hs, Option.map_some, explain, hp], hfault⟩

end Machine

end PseudoVm
