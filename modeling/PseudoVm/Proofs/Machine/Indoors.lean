import PseudoVm.Proofs.Machine.FailedStep
/-!
# Machine.Indoors: what an instruction sees of the world

Of the world around it an instruction that calls no library function sees the heap and nothing else.  A machine that
is moved to another world, with its heap, goes the same way there (`Exec.Indoors`), and the rest of the world it is in
stays as it was (`Exec.Indoors.world_eq`).
-/
namespace PseudoVm

namespace Machine

/-- The machine in another world, to which it brings its heap. -/
def movedTo (m : Machine) (w : World) : Machine := { m with world := { w with heap := m.world.heap } }

theorem movedTo_self (m : Machine) : m.movedTo m.world = m := rfl

theorem letGo_movedTo (m : Machine) (w : World) (vs : List Value) :
    (m.movedTo w).letGo vs = (m.letGo vs).movedTo w := by
  unfold letGo
  split <;> rfl

theorem modifyFrame_movedTo (m : Machine) (w : World) (frame : Nat) (g : Frame → Frame) :
    (m.movedTo w).modifyFrame frame g = (m.modifyFrame frame g).movedTo w := by
  have hplace : (m.movedTo w).place? frame = m.place? frame := rfl
  unfold modifyFrame
  rw [hplace]
  cases m.place? frame <;> rfl

theorem write_movedTo (m : Machine) (w : World) (r : Reference) (v : Value) :
    (m.movedTo w).write r v = (m.write r v).movedTo w := by
  cases r with
  | global slot => exact modifyFrame_movedTo m w 0 _
  | «local» frame slot => exact modifyFrame_movedTo m w frame _
  | param frame slot => exact modifyFrame_movedTo m w frame _
  | element array index => rfl
  | field object index => rfl

theorem store_movedTo (m : Machine) (w : World) (r : Reference) (v : Value) :
    (m.movedTo w).store r v = (m.store r v).map (·.movedTo w) := by
  have hpeek : (m.movedTo w).peek r = m.peek r := rfl
  rw [store_eq_peek, store_eq_peek, hpeek]
  cases m.peek r with
  | error f => rfl
  | ok old =>
    dsimp only
    rw [write_movedTo, letGo_movedTo]
    rfl

end Machine

namespace Exec

variable {α β : Type}

/-- An end of an instruction under way, moved to another world. -/
def moved (w : World) : EStateM.Result Stop Machine α → EStateM.Result Stop Machine α
  | .ok a m => .ok a (m.movedTo w)
  | .error s m => .error s (m.movedTo w)

/-- **It goes the same way in every world with the same heap**, and leaves the rest of the world alone. -/
def Indoors (x : Exec α) : Prop := ∀ m w, x (m.movedTo w) = moved w (x m)

namespace Indoors

theorem world_eq {x : Exec α} (hx : Indoors x) {m m' : Machine} {a : α} (h : x m = .ok a m') :
    m'.world = { m.world with heap := m'.world.heap } := by
  have hself := hx m m.world
  rw [Machine.movedTo_self, h] at hself
  injection hself with _ hm
  exact congrArg Machine.world hm

theorem pure (a : α) : Indoors (pure a : Exec α) := fun _ _ => rfl

theorem throw (s : Stop) : Indoors (throw s : Exec α) := fun _ _ => rfl

theorem fault (f : Fault) : Indoors (Exec.fault f : Exec α) := throw _

theorem bind {x : Exec α} {k : α → Exec β} (hx : Indoors x) (hk : ∀ a, Indoors (k a)) : Indoors (x >>= k) := by
  intro m w
  simp only [Bind.bind, EStateM.bind, hx m w]
  cases x m with
  | ok a m₁ => exact hk a m₁ w
  | error s m₁ => rfl

theorem look {k : Machine → Exec α} (hsame : ∀ m w, k (m.movedTo w) = k m) (hk : ∀ m, Indoors (k m)) :
    Indoors (get >>= k) := fun m w => (congrFun (hsame m w) _).trans (hk m m w)

theorem modify {g : Machine → Machine} (hg : ∀ m w, g (m.movedTo w) = (g m).movedTo w) :
    Indoors (modify g : Exec Unit) := by
  intro m w
  change EStateM.Result.ok () (g (m.movedTo w)) = .ok () ((g m).movedTo w)
  rw [hg]

theorem holding {vs : List Value} {x : Exec α} (hx : Indoors x) : Indoors (holding vs x) := by
  intro m w
  unfold Exec.holding
  rw [hx m w]
  cases x m <;> simp only [moved, Machine.letGo_movedTo]

theorem plain {x : Exec Unit} (hx : Indoors x) : Indoors (plain x) := hx.bind fun _ => .pure _

end Indoors

/-! ## Operands and cells -/

theorem indoors_require (a : Option α) : Indoors (require a) := by
  unfold require
  split
  · exact .pure _
  · exact .throw _

theorem indoors_top : Indoors top := by
  refine .look (fun _ _ => rfl) fun m => ?_
  split
  · exact .pure _
  · exact .fault _

theorem indoors_setEval (eval : List Value) : Indoors (setEval eval) := by
  refine .modify fun m w => ?_
  obtain ⟨image, limits, pc, stack, executed, result, suspended, loose, world⟩ := m
  cases stack <;> rfl

theorem indoors_letGo (vs : List Value) : Indoors (letGo vs) := .modify fun m w => m.letGo_movedTo w vs

theorem indoors_load (r : Reference) : Indoors (load r) := by
  refine .look (fun _ _ => rfl) fun m => ?_
  split
  · exact .pure _
  · exact .throw _

theorem indoors_store (r : Reference) (v : Value) : Indoors (store r v) := by
  intro m w
  rw [store_eq, store_eq, Machine.store_movedTo]
  cases m.store r v with
  | error f =>
    dsimp only [Except.map]
    rw [Machine.letGo_movedTo]
    rfl
  | ok m' => rfl

theorem indoors_topNumber : Indoors topNumber := by
  refine .look (fun _ _ => rfl) fun m => ?_
  dsimp only
  split
  · exact .bind (.fault _) fun _ => .pure _
  · exact .pure _

theorem indoors_heap : Indoors heap := .look (fun _ _ => rfl) fun _ => .pure _

theorem indoors_setHeap (heap : Heap) : Indoors (modify (·.setHeap heap) : Exec Unit) := .modify fun _ _ => rfl

theorem indoors_field (cls : ClassId) (object : ObjectId) (index : Nat) : Indoors (field cls object index) := by
  refine indoors_heap.bind fun h => ?_
  split
  · exact .pure _
  · exact .look (fun _ _ => rfl) fun _ => .fault _
  · exact .fault _

/-- **Instructions stay indoors as far as their parts do.** -/
theorem compositional_indoors : Compositional fun _ x => Indoors x where
  pure := .pure
  bind := .bind
  holding := .holding
  fault _ := .fault _
  top := indoors_top
  setEval := indoors_setEval
  letGo := indoors_letGo
  load := indoors_load
  store := indoors_store
  topNumber := indoors_topNumber
  heap := indoors_heap
  setHeap := indoors_setHeap
  field := indoors_field

theorem indoors_push (v : Value) : Indoors (push v) := compositional_indoors.push v

theorem indoors_popMany (n : Nat) : Indoors (popMany n) := compositional_indoors.popMany n

theorem indoors_pointee (slot : Nat) : Indoors (pointee slot) := by
  refine (compositional_indoors.param slot).bind fun v =>
    (compositional_indoors.check (ordinary_asReference v)).bind fun r => .look (fun _ _ => rfl) fun m => ?_
  split
  · exact .pure _
  · exact indoors_top.bind fun f => (indoors_require _).bind fun scope => .fault _
  · exact .throw _

/-! ## Arrays and objects -/

theorem indoors_copyArray (dims : Nat) : Indoors (copyArray dims) := by
  refine compositional_indoors.pop.bind fun v => .holding <|
    (compositional_indoors.check (ordinary_asArray v)).bind fun _ => indoors_heap.bind fun h => ?_
  split
  · exact .throw _
  · exact (indoors_setHeap _).bind fun _ => indoors_push _

theorem indoors_newObject (cls : ClassId) (nfields : Nat) : Indoors (newObject cls nfields) := by
  unfold newObject
  split
  · refine .bind (.throw _) fun _ => ?_
    exact indoors_heap.bind fun _ => (indoors_setHeap _).bind fun _ => indoors_push _
  · exact indoors_heap.bind fun _ => (indoors_setHeap _).bind fun _ => indoors_push _

/-! ## Calls and returns -/

theorem indoors_jump (label : LabelId) : Indoors (Exec.jump label) :=
  .look (fun _ _ => rfl) fun _ => (indoors_require _).bind fun _ => .pure _

theorem indoors_enter (target : Nat) (scope : ScopeId) (args : List Value) : Indoors (enter target scope args) := by
  intro m w
  rw [enter_eq, enter_eq]
  by_cases hdeep : m.limits.maxStackDepth ≤ m.depth
  · rw [if_pos hdeep]
    exact if_pos hdeep
  · rw [if_neg hdeep]
    refine (if_neg hdeep).trans ?_
    have hscope : (m.movedTo w).image.scopes[scope]? = m.image.scopes[scope]? := rfl
    rw [hscope]
    cases m.image.scopes[scope]? <;> rfl

theorem indoors_leave (nval : Nat) : Indoors (leave nval) := by
  intro m w
  have hstack : (m.movedTo w).stack = m.stack := rfl
  rw [leave_eq, leave_eq, hstack]
  cases m.stack with
  | nil => rfl
  | cons frame rest =>
    dsimp only
    by_cases hn : frame.eval.length ≠ nval
    · rw [if_pos hn, if_pos hn]
      rfl
    · rw [if_neg hn, if_neg hn]
      cases rest with
      | nil => exact congrArg (EStateM.Result.ok Flow.next) (Machine.letGo_movedTo { m with stack := [] } w _)
      | cons caller rest =>
        let handed : Frame := { caller with eval := frame.eval ++ caller.eval }
        exact congrArg (EStateM.Result.ok _) (Machine.letGo_movedTo { m with stack := handed :: rest } w _)

theorem indoors_stop (nval : Nat) : Indoors (stop nval) := by
  intro m w
  have hstack : (m.movedTo w).stack = m.stack := rfl
  have hresult : (m.movedTo w).result = m.result := rfl
  rw [stop_eq, stop_eq, hstack, hresult]
  cases m.stack with
  | nil => rfl
  | cons frame rest =>
    dsimp only
    by_cases hn : frame.eval.length ≠ nval
    · rw [if_pos hn, if_pos hn]
      rfl
    · rw [if_neg hn, if_neg hn]
      exact congrArg (EStateM.Result.ok Flow.next)
        (Machine.letGo_movedTo { m with result := frame.eval.head?, stack := [] } w _)

theorem indoors_method (receiver : Value) (slot : Nat) : Indoors (method receiver slot) := by
  refine (compositional_indoors.check (ordinary_asObject receiver)).bind fun p => .look (fun _ _ => rfl) fun m => ?_
  split
  · exact .pure _
  · exact .fault _

theorem indoors_call (label : LabelId) (scope : ScopeId) (nargs : Nat) : Indoors (op (.call label scope nargs)) :=
  (indoors_popMany nargs).bind fun _ => .holding <| .look (fun _ _ => rfl) fun _ => (indoors_require _).bind fun _ =>
    indoors_enter _ scope _

theorem indoors_vcall (cls : ClassId) (slot nargs : Nat) : Indoors (op (.vcall cls slot nargs)) := by
  refine (indoors_popMany nargs).bind fun args => .holding ?_
  split
  · exact .fault _
  · exact (indoors_method _ slot).bind fun _ => .look (fun _ _ => rfl) fun _ => (indoors_require _).bind fun _ =>
      indoors_enter _ _ _

/-- **Every instruction but a library call stays indoors.** -/
theorem indoors_op (o : Op) (h : o.isLibCall = false) : Indoors (op o) := by
  by_cases hb : o.isBasic = true
  · exact compositional_indoors.op indoors_pointee o hb
  cases o <;> simp only [Op.isBasic, not_true_eq_false] at hb
  case libCall => cases h
  case begin => exact .pure _
  case litStr id =>
    refine .plain (.look (fun _ _ => rfl) fun m => ?_)
    split
    · exact indoors_push _
    · exact .fault _
  case arrayClone dims => exact .plain (indoors_copyArray dims)
  case objNew cls nfields => exact .plain (indoors_newObject cls nfields)
  case jump label => exact indoors_jump label
  case jumpTrue label => exact compositional_indoors.condJump (indoors_jump label) (.pure _)
  case jumpFalse label => exact compositional_indoors.condJump (.pure _) (indoors_jump label)
  case call => exact indoors_call _ _ _
  case vcall => exact indoors_vcall _ _ _
  case finish => exact indoors_leave 0
  case ret nval => exact indoors_leave nval
  case halt nval => exact indoors_stop nval

end Exec

end PseudoVm
