import PseudoVm.Proofs.Machine.CallReturn
import PseudoVm.Proofs.World.ReleaseSafety
/-!
# Machine.FailedStep: an instruction that fails leaves the program as it was

An instruction pops and looks first (`Exec.Within`), and what it writes or pushes then cannot fail while there is a
frame (`Exec.Sure`).  So one that fails has popped operands and done nothing else (`Exec.BacksOut`), short of a library
call, which may have used the console and read on in a file; the heap is as it was even then.
-/
namespace PseudoVm

/-- An instruction that pops nothing before everything that can fail. -/
def Op.isRetriable : Op → Bool
  | .litStr _ | .globalVal _ | .localVal _ | .paramVal _ | .paramPtr _ | .finish | .ret _ | .halt _ => true
  | _ => false

/-- A call of a library function. -/
def Op.isLibCall : Op → Bool
  | .libCall _ _ => true
  | _ => false

/-- A frame without its latest operands. -/
def Frame.popped (k : Nat) (f : Frame) : Frame := { f with eval := f.eval.drop k }

namespace Machine

/-- **Operands of the latest frame were popped**, none unless `pops`, and values are to be let go. -/
def Popped (pops : Bool) (m m' : Machine) : Prop :=
  ∃ k loose, (pops = false → k = 0) ∧ m' = { m with stack := m.stack.modifyHead (Frame.popped k), loose := loose }

namespace Popped

variable {pops : Bool} {m m₁ m₂ : Machine}

theorem modifyHead_popped_zero (stack : List Frame) : stack.modifyHead (Frame.popped 0) = stack := by
  cases stack <;> rfl

theorem of_loose (m : Machine) (loose : List Value) : m.Popped pops { m with loose := loose } :=
  ⟨0, loose, fun _ => rfl, by rw [modifyHead_popped_zero]⟩

theorem refl (m : Machine) : m.Popped pops m := of_loose m m.loose

theorem trans (h₁ : m.Popped pops m₁) (h₂ : m₁.Popped pops m₂) : m.Popped pops m₂ := by
  obtain ⟨k₁, loose₁, hk₁, rfl⟩ := h₁
  obtain ⟨k₂, loose₂, hk₂, rfl⟩ := h₂
  refine ⟨k₁ + k₂, loose₂, fun hp => by rw [hk₁ hp, hk₂ hp], ?_⟩
  have hf : Frame.popped k₂ ∘ Frame.popped k₁ = Frame.popped (k₁ + k₂) := by
    funext f
    simp [Frame.popped, List.drop_drop]
  rw [List.modifyHead_modifyHead, hf]

theorem letGo (m : Machine) (vs : List Value) : m.Popped pops (m.letGo vs) := by
  unfold Machine.letGo
  split
  · exact refl m
  · exact of_loose m _

theorem isDone (h : m.Popped pops m₁) : m₁.isDone = m.isDone := by
  obtain ⟨k, loose, -, rfl⟩ := h
  unfold Machine.isDone
  cases m.stack <;> rfl

end Popped

end Machine

namespace Exec

variable {α β : Type} {pops : Bool}

/-- However it ends, it has at most popped operands. -/
structure Within (pops : Bool) (x : Exec α) : Prop where
  ok : ∀ {m a m'}, x m = .ok a m' → m.Popped pops m'
  error : ∀ {m s m'}, x m = .error s m' → m.Popped pops m'

/-- While there is a frame it does not fail. -/
def Sure (x : Exec α) : Prop := ∀ m s m', m.isDone = false → x m ≠ .error s m'

/-- **If it fails while there is a frame, it has at most popped operands.** -/
def BacksOut (pops : Bool) (x : Exec α) : Prop :=
  ∀ m s m', m.isDone = false → x m = .error s m' → m.Popped pops m'

namespace Within

theorem pure (a : α) : Within pops (pure a : Exec α) :=
  ⟨fun h => by cases h; exact .refl _, fun h => by cases h⟩

theorem throw (s : Stop) : Within pops (throw s : Exec α) :=
  ⟨fun h => (by cases h), fun h => by cases h; exact .refl _⟩

theorem fault (f : Fault) : Within pops (Exec.fault f : Exec α) := throw _

theorem get : Within pops (get : Exec Machine) := ⟨fun h => by cases h; exact .refl _, fun h => by cases h⟩

theorem bind {x : Exec α} {k : α → Exec β} (hx : Within pops x) (hk : ∀ a, Within pops (k a)) :
    Within pops (x >>= k) := by
  refine ⟨fun h => ?_, fun h => ?_⟩
  · obtain ⟨a, m₁, h1, h2⟩ := bind_ok_iff.1 h
    exact (hx.ok h1).trans ((hk a).ok h2)
  · obtain h1 | ⟨a, m₁, h1, h2⟩ := bind_error_iff.1 h
    · exact hx.error h1
    · exact (hx.ok h1).trans ((hk a).error h2)

theorem backsOut {x : Exec α} (hx : Within pops x) : BacksOut pops x := fun _ _ _ _ h => hx.error h

end Within

theorem Sure.backsOut {x : Exec α} (hx : Sure x) : BacksOut pops x := fun m s m' hd h => absurd h (hx m s m' hd)

theorem Sure.bind {A : Image → Prop} {x : Exec α} {k : α → Exec β} (hx : Sure x) (hkeeps : Keeps A x)
    (hk : ∀ a, Sure (k a)) : Sure (x >>= k) := by
  intro m s m' hd h
  obtain h1 | ⟨a, m₁, h1, h2⟩ := bind_error_iff.1 h
  · exact hx m s m' hd h1
  · exact hk a m₁ s m' (by rw [(hkeeps.ok h1).isDone]; exact hd) h2

namespace BacksOut

theorem bind {x : Exec α} {k : α → Exec β} (hx : Within pops x) (hk : ∀ a, BacksOut pops (k a)) :
    BacksOut pops (x >>= k) := by
  intro m s m' hd h
  obtain h1 | ⟨a, m₁, h1, h2⟩ := bind_error_iff.1 h
  · exact hx.error h1
  · have hp := hx.ok h1
    exact hp.trans (hk a m₁ s m' (by rw [hp.isDone]; exact hd) h2)

theorem bind_sure {A : Image → Prop} {x : Exec α} {k : α → Exec β} (hx : BacksOut pops x) (hkeeps : Keeps A x)
    (hk : ∀ a, Sure (k a)) : BacksOut pops (x >>= k) := by
  intro m s m' hd h
  obtain h1 | ⟨a, m₁, h1, h2⟩ := bind_error_iff.1 h
  · exact hx m s m' hd h1
  · exact absurd h2 (hk a m₁ s m' (by rw [(hkeeps.ok h1).isDone]; exact hd))

theorem holding {vs : List Value} {x : Exec α} (hx : BacksOut pops x) : BacksOut pops (holding vs x) := by
  intro m s m' hd h
  obtain ⟨m₁, h1, rfl⟩ := holding_error_iff.1 h
  exact (hx m s m₁ hd h1).trans (.letGo m₁ vs)

theorem plain {x : Exec Unit} (hx : BacksOut pops x) : BacksOut pops (plain x) := by
  intro m s m' hd h
  obtain h1 | ⟨_, _, _, h2⟩ := bind_error_iff.1 h
  · exact hx m s m' hd h1
  · cases h2

end BacksOut

/-! ## What pops and looks -/

theorem within_check (r : Except Fault α) : Within pops (check r) := by
  unfold check
  split
  · exact .pure _
  · exact .fault _

theorem within_require (a : Option α) : Within pops (require a) := by
  unfold require
  split
  · exact .pure _
  · exact .throw _

theorem within_top : Within pops top := by
  refine .bind .get fun m => ?_
  split
  · exact .pure _
  · exact .fault _

theorem within_letGo (vs : List Value) : Within pops (letGo vs) :=
  ⟨fun h => by cases h; exact .letGo _ vs, fun h => by cases h⟩

theorem within_popMany (n : Nat) : Within true (popMany n) := by
  refine ⟨fun {m vs m'} h => ?_, fun {m s m'} h => ?_⟩
  · obtain ⟨f, rest, hst, -, -, rfl⟩ := popMany_ok h
    exact ⟨n, m.loose, nofun, by rw [hst]; rfl⟩
  · rw [popMany_eq] at h
    split at h
    · cases h
      exact .refl m
    · split at h <;> cases h
      exact .refl m

theorem pop_eq (m : Machine) :
    pop m = match m.stack with
      | [] => .error (.fault (.internal .noFrame)) m
      | f :: rest =>
        match f.eval with
        | [] => .error (.fault .evalStackUnderflow) m
        | v :: eval => .ok v { m with stack := { f with eval := eval } :: rest } := by
  obtain ⟨image, limits, pc, stack, executed, result, suspended, loose, world⟩ := m
  cases stack with
  | nil => rfl
  | cons f rest =>
    obtain ⟨scope, start, returnPc, args, params, locals, eval⟩ := f
    cases eval <;> rfl

theorem within_pop : Within true pop := by
  refine ⟨fun {m v m'} h => ?_, fun {m s m'} h => ?_⟩
  · rw [pop_eq] at h
    split at h
    · cases h
    · rename_i f rest hst
      split at h <;> cases h
      rename_i eval he
      exact ⟨1, m.loose, nofun, by rw [hst]; simp [Frame.popped, he]⟩
  · rw [pop_eq] at h
    split at h
    · cases h
      exact .refl m
    · split at h <;> cases h
      exact .refl m

theorem within_popAs (as : Value → Except Fault α) : Within true (popAs as) :=
  within_pop.bind fun v => (within_letGo [v]).bind fun _ => within_check _

theorem within_load (r : Reference) : Within pops (load r) := by
  refine .bind .get fun m => ?_
  split
  · exact .pure _
  · exact .throw _

theorem within_topNumber : Within pops topNumber := by
  refine .bind .get fun m => ?_
  dsimp only
  split
  · exact .bind (.fault _) fun _ => .pure _
  · exact .pure _

theorem within_heap : Within pops heap := .bind .get fun _ => .pure _

theorem within_param (slot : Nat) : Within pops (param slot) := by
  refine within_top.bind fun f => ?_
  split
  · exact .pure _
  · exact .fault _

theorem within_field (cls : ClassId) (object : ObjectId) (index : Nat) : Within pops (field cls object index) := by
  refine within_heap.bind fun h => ?_
  split
  · exact .pure _
  · exact .bind .get fun _ => .fault _
  · exact .fault _

theorem within_pointee (slot : Nat) : Within pops (pointee slot) := by
  refine (within_param slot).bind fun v => (within_check _).bind fun r => .bind .get fun m => ?_
  split
  · exact .pure _
  · exact within_top.bind fun f => (within_require _).bind fun scope => .fault _
  · exact .throw _

theorem within_elementRef (kind : Container) (container : Value) (index : Int64) :
    Within pops (elementRef kind container index) := by
  cases kind with
  | string => exact .fault _
  | array | object =>
    exact (within_check _).bind fun _ => within_heap.bind fun _ => (within_check _).bind fun _ => .pure _

theorem within_elementVal (kind : Container) (container : Value) (index : Int64) :
    Within pops (elementVal kind container index) := by
  cases kind with
  | string => exact (within_check _).bind fun _ => (within_check _).bind fun _ => .pure _
  | array => exact within_heap.bind fun _ => (within_check _).bind fun _ => (within_check _).bind fun _ => .pure _
  | object =>
    exact (within_check _).bind fun _ => within_heap.bind fun _ => (within_check _).bind fun _ => within_field _ _ _

theorem within_jump (label : LabelId) : Within pops (Exec.jump label) :=
  .bind .get fun _ => (within_require _).bind fun _ => .pure _

theorem within_method (receiver : Value) (slot : Nat) : Within pops (method receiver slot) := by
  refine (within_check _).bind fun p => .bind .get fun m => ?_
  split
  · exact .pure _
  · exact .fault _

/-! ## What writes and pushes -/

theorem sure_modify (g : Machine → Machine) : Sure (modify g : Exec Unit) := fun _ _ _ _ h => by cases h

theorem sure_push (v : Value) : Sure (push v) := by
  intro m s m' hd h
  obtain h1 | ⟨f, m₁, _, h2⟩ := bind_error_iff.1 h
  · rw [top_eq] at h1
    split at h1
    · cases h1
    · rename_i hst
      rw [Machine.isDone, hst] at hd
      cases hd
  · cases h2

theorem sure_setHeap_push (heap : Heap) (v : Value) : Sure (do modify (·.setHeap heap); push v : Exec Unit) :=
  (sure_modify _).bind (keeps_setHeap (A := fun _ => True) heap) fun _ => sure_push v

theorem backsOut_store (r : Reference) (v : Value) : BacksOut pops (store r v) := by
  intro m s m' _ h
  rw [store_eq] at h
  split at h <;> cases h
  exact .letGo m [v]

theorem backsOut_push (v : Value) : BacksOut pops (push v) := (sure_push v).backsOut

theorem Within.push {x : Exec Value} (hx : Within pops x) : BacksOut pops (do push (← x) : Exec Unit) :=
  .bind hx fun _ => backsOut_push _

theorem backsOut_newObject (cls : ClassId) (nfields : Nat) : BacksOut pops (newObject cls nfields) := by
  unfold newObject
  split
  · exact .bind (.throw _) fun _ => .bind within_heap fun _ => (sure_setHeap_push _ _).backsOut
  · exact .bind within_heap fun _ => (sure_setHeap_push _ _).backsOut

theorem backsOut_copyArray (dims : Nat) : BacksOut true (copyArray dims) := by
  refine .bind within_pop fun v => .holding <| .bind (within_check _) fun _ => .bind within_heap fun h => ?_
  split
  · exact (Within.throw _).backsOut
  · exact (sure_setHeap_push _ _).backsOut

theorem backsOut_storeChar : BacksOut true storeChar :=
  .bind (within_popAs _) fun _ => .bind (within_popAs _) fun r => .holding <| .bind (within_popAs _) fun _ =>
    .bind (within_load r) fun _ => .bind (within_check _) fun _ => .bind (within_check _) fun _ => backsOut_store r _

theorem backsOut_forInit (kind : Counter) : BacksOut true (forInit kind) :=
  .bind within_pop fun _ => .holding <| .bind within_pop fun _ => .holding <| .bind within_pop fun _ => .holding <|
    .bind (within_popAs _) fun r => .holding <| .bind (within_check _) fun _ =>
      .bind_sure (backsOut_store r _) (keeps_store (A := fun _ => True) r _) fun _ => sure_push _

theorem backsOut_forStep (kind : Counter) : BacksOut true (forStep kind) :=
  .bind within_pop fun _ => .holding <| .bind within_pop fun _ => .holding <| .bind (within_popAs _) fun r =>
    .bind (within_load r) fun _ => .bind (within_check _) fun _ => .bind (within_check _) fun _ =>
      .bind_sure (backsOut_store r _) (keeps_store (A := fun _ => True) r _) fun _ => sure_push _

theorem backsOut_binaryStr (op : BinaryOp) : BacksOut true (binaryStr op) :=
  .bind within_pop fun _ => .holding <| .bind within_pop fun _ => .holding <| .bind (within_check _) fun _ =>
    .bind (within_check _) fun _ => (within_check _).push

theorem backsOut_binary (as : Value → Except Fault α) (f : α → α → Except Fault Value) :
    BacksOut true (binary as f) :=
  .bind (within_popAs as) fun _ => .bind (within_popAs as) fun _ => (within_check _).push

theorem backsOut_unary (as : Value → Except Fault α) (f : α → Value) : BacksOut true (unary as f) :=
  .bind (within_popAs as) fun _ => backsOut_push _

theorem backsOut_increment (as : Value → Except Fault α) (f : α → Value) : BacksOut true (increment as f) :=
  .bind (within_popAs _) fun r => .bind (within_load r) fun _ => .bind (within_check _) fun _ => backsOut_store r _

/-! ## Calls and returns -/

theorem backsOut_enter (target : Nat) (scope : ScopeId) (args : List Value) :
    BacksOut pops (enter target scope args) := by
  intro m s m' _ h
  rw [(enter_error h).1]
  exact .refl m

theorem backsOut_leave (nval : Nat) : BacksOut pops (leave nval) := by
  intro m s m' _ h
  rw [(leave_error h).1]
  exact .refl m

theorem backsOut_stop (nval : Nat) : BacksOut pops (stop nval) := by
  intro m s m' _ h
  rw [(stop_error h).1]
  exact .refl m

theorem backsOut_call (label : LabelId) (scope : ScopeId) (nargs : Nat) :
    BacksOut true (op (.call label scope nargs)) :=
  .bind (within_popMany nargs) fun args => .holding <| .bind .get fun _ => .bind (within_require _) fun _ =>
    backsOut_enter _ scope args

theorem backsOut_vcall (cls : ClassId) (slot nargs : Nat) : BacksOut true (op (.vcall cls slot nargs)) := by
  refine .bind (within_popMany nargs) fun args => .holding ?_
  split
  · exact (Within.fault _).backsOut
  · exact .bind (within_method _ slot) fun _ => .bind .get fun _ => .bind (within_require _) fun _ =>
      backsOut_enter _ _ _

/-- **Every instruction but a library call backs out of a failure**, and one that can be retried has popped nothing. -/
theorem backsOut_op (o : Op) (h : o.isLibCall = false) : BacksOut (!o.isRetriable) (op o) := by
  cases o
  case libCall => cases h
  case begin => exact (Within.pure _).backsOut
  case jump label => exact (within_jump label).backsOut
  case jumpTrue label =>
    refine .bind (within_popAs _) fun b => ?_
    split
    · exact (within_jump label).backsOut
    · exact (Within.pure _).backsOut
  case jumpFalse label =>
    refine .bind (within_popAs _) fun b => ?_
    split
    · exact (Within.pure _).backsOut
    · exact (within_jump label).backsOut
  case call => exact backsOut_call _ _ _
  case vcall => exact backsOut_vcall _ _ _
  case finish => exact backsOut_leave 0
  case ret nval => exact backsOut_leave nval
  case halt nval => exact backsOut_stop nval
  case unInt u => cases u <;> first | exact .plain (backsOut_unary _ _) | exact .plain (Within.fault _).backsOut
  case unReal u => cases u <;> first | exact .plain (backsOut_unary _ _) | exact .plain (Within.fault _).backsOut
  case unBool u => cases u <;> first | exact .plain (backsOut_unary _ _) | exact .plain (Within.fault _).backsOut
  all_goals refine .plain ?_
  case litInt | litReal | litBool | litChar | globalRef => exact backsOut_push _
  case litStr id =>
    refine .bind .get fun m => ?_
    split
    · exact backsOut_push _
    · exact (Within.fault _).backsOut
  case globalVal => exact (within_load _).push
  case localRef | paramRef => exact .bind within_topNumber fun _ => backsOut_push _
  case localVal => exact .bind within_topNumber fun _ => (within_load _).push
  case paramVal => exact (within_param _).push
  case paramPtr => exact (within_pointee _).push
  case fieldRef => exact .bind (within_popAs _) fun _ => backsOut_push _
  case fieldVal => exact .bind (within_popAs _) fun _ => (within_field _ _ _).push
  case store => exact .bind (within_popAs _) fun r => .holding (.bind within_pop fun v => backsOut_store r v)
  case storeChar => exact backsOut_storeChar
  case deref => exact .bind (within_popAs _) fun r => (within_load r).push
  case binInt | binReal | binChar | binBool => exact backsOut_binary _ _
  case binStr b => exact backsOut_binaryStr b
  case intToReal | realToInt => exact backsOut_unary _ _
  case incrInt | incrReal => exact backsOut_increment _ _
  case forInit kind => exact backsOut_forInit kind
  case forStep kind => exact backsOut_forStep kind
  case offsetRef kind =>
    exact .bind (within_popAs _) fun _ => .bind within_pop fun _ =>
      .holding (.bind (within_elementRef kind _ _) fun _ => backsOut_push _)
  case offsetVal kind =>
    exact .bind (within_popAs _) fun _ => .bind within_pop fun _ => .holding (within_elementVal kind _ _).push
  case arrayNew size =>
    exact .bind (within_popMany size) fun _ => .bind within_heap fun _ => (sure_setHeap_push _ _).backsOut
  case arrayClone dims => exact backsOut_copyArray dims
  case arrayLen => exact .bind (within_popAs _) fun _ => .bind within_heap fun _ => backsOut_push _
  case objNew cls nfields => exact backsOut_newObject cls nfields
  case dup =>
    refine .bind within_pop fun v => Sure.backsOut ?_
    exact (sure_push v).bind (keeps_push (A := fun _ => True) v) fun _ => sure_push v
  case pop => exact .bind within_pop fun v => (within_letGo [v]).backsOut

end Exec

/-! ## Library calls -/

namespace Library

/-- A call that leaves the heap as it was if it fails. -/
def SparesHeap {α : Type} (a : Act α) : Prop := ∀ w s w', a w = .error s w' → w'.heap = w.heap

theorem sparesHeap_computed (r : Except Fault Value) : SparesHeap (computed r) := by
  intro w s w' h
  cases r <;> cases h
  rfl

theorem sparesHeap_update (f : World → Except Fault (Value × World)) : SparesHeap (update f) := by
  intro w s w' h
  unfold update at h
  split at h <;> cases h
  rfl

theorem sparesHeap_effect (f : World → Except Fault World) : SparesHeap (effect f) := by
  intro w s w' h
  unfold effect at h
  split at h <;> cases h
  rfl

theorem sparesHeap_display (args : List Value) : SparesHeap (display args) := by
  intro w s w' h
  unfold display at h
  split at h <;> cases h
  rfl

theorem sparesHeap_ask {α : Type} (function : String) (d : Dialogue α) (value : α → Value) (args : List Value) :
    SparesHeap (ask function d value args) := by
  intro w s w' h
  unfold ask at h
  split at h
  · cases h
    rfl
  · split at h <;> cases h
    rfl

theorem nextLine_heap (function : String) (v : Value) (w : World) : (nextLine function v w).2.heap = w.heap := by
  unfold nextLine
  split
  · rfl
  · dsimp only
    split
    · rfl
    · split <;> rfl

theorem readValue_heap (function : String) (understand : String → Option Value) (args : List Value) (w : World) :
    (readValue function understand args w).2.heap = w.heap := by
  unfold readValue
  split
  · rfl
  · rename_i file _
    have hn := nextLine_heap function file w
    split
    · rename_i hw
      rw [hw] at hn
      exact hn
    · rename_i hw
      rw [hw] at hn
      split <;> exact hn

theorem sparesHeap_readValue (function : String) (understand : String → Option Value) (args : List Value) :
    SparesHeap (attempt (readValue function understand args)) := by
  intro w s w' h
  have hr := readValue_heap function understand args w
  unfold attempt at h
  split at h
  · cases h
  · rename_i hw
    cases h
    rw [hw] at hr
    exact hr

/-- **A library function that fails leaves every array and object as it was.** -/
theorem sparesHeap_call (f : LibraryFunction) (args : List Value) : SparesHeap (call f args) := by
  cases f <;> unfold call
  case display => exact sparesHeap_display args
  case inputInteger | inputReal | inputString | inputCharacter | inputBoolean => exact sparesHeap_ask _ _ _ args
  case random => exact sparesHeap_update _
  case openOutputFile | openAppendFile | openInputFile | eof => exact sparesHeap_update _
  case closeOutputFile | closeInputFile | writeFile => exact sparesHeap_effect _
  case readInteger | readReal | readString | readCharacter | readBoolean => exact sparesHeap_readValue _ _ args
  all_goals exact sparesHeap_computed _

end Library

namespace Exec

theorem callLibrary_error {index nargs : Nat} {m m' : Machine} {s : Stop} (hd : m.isDone = false)
    (h : callLibrary index nargs m = .error s m') :
    ∃ w, w.heap = m.world.heap ∧ Machine.Popped true { m with world := w } m' := by
  obtain hp | ⟨args, m₁, hp, h1⟩ := bind_error_iff.1 h
  · exact ⟨m.world, rfl, (within_popMany nargs).error hp⟩
  have hpop := (within_popMany nargs).ok hp
  obtain ⟨m₂, h2, rfl⟩ := holding_error_iff.1 h1
  cases hf : LibraryFunction.ofIndex? index with
  | none =>
    rw [hf] at h2
    cases h2
    exact ⟨m.world, rfl, hpop.trans (.letGo _ args)⟩
  | some f =>
    rw [hf] at h2
    obtain ha | ⟨v, m₃, ha, h3⟩ := bind_error_iff.1 h2
    · rw [act_eq] at ha
      split at ha <;> cases ha
      rename_i w hw
      obtain ⟨k, loose, hk, rfl⟩ := hpop
      refine ⟨w, Library.sparesHeap_call f args _ s w hw, ?_⟩
      exact Machine.Popped.trans ⟨k, loose, hk, rfl⟩ (.letGo _ args)
    · -- Pushing the answer cannot fail.
      have hd₃ : m₃.isDone = false := by
        rw [((keeps_act (A := fun _ => True) (Library.call_missesTable f args)).ok ha).isDone, hpop.isDone]
        exact hd
      cases v with
      | none => cases h3
      | some v =>
        obtain h4 | ⟨_, _, _, h4⟩ := bind_error_iff.1 h3
        · exact absurd h4 (sure_push v m₃ s m₂ hd₃)
        · cases h4

/-- **What an instruction that fails has done.** -/
theorem op_backsOut (o : Op) {m m' : Machine} {s : Stop} (hd : m.isDone = false) (h : op o m = .error s m') :
    ∃ w, w.heap = m.world.heap ∧ (o.isLibCall = false → w = m.world) ∧
      Machine.Popped (!o.isRetriable) { m with world := w } m' := by
  by_cases hl : o.isLibCall = false
  · exact ⟨m.world, rfl, fun _ => rfl, backsOut_op o hl m s m' hd h⟩
  · cases o <;> simp only [Op.isLibCall, not_true_eq_false] at hl
    obtain ⟨w, hw, hp⟩ := callLibrary_error hd h
    exact ⟨w, hw, nofun, hp⟩

end Exec

namespace Machine

variable {m m' : Machine}

theorem settle_values (m : Machine) : m.settle.values = m.values := by
  unfold values
  rw [settle_stack, m.steady_settle.result, m.steady_settle.suspended]

theorem settle_loose (m : Machine) : m.settle.loose = [] := by
  unfold settle
  by_cases hnil : m.loose.isEmpty = true
  · rw [if_pos hnil]
    exact List.isEmpty_iff.1 hnil
  · rw [if_neg hnil]
    split <;> rfl

theorem settle_world (m : Machine) : ∃ freed : List FileId, m.settle.world = freed.foldl World.release m.world ∧
    ∀ id ∈ freed, (m.world.file? id).isSome → ¬ m.world.heap.Reaches m.values (.file id) := by
  unfold settle
  split
  · exact ⟨[], rfl, fun id h => nomatch h⟩
  · split
    · exact m.world.letGo_eq m.values m.loose
    · exact ⟨[], rfl, fun id h => nomatch h⟩

/-- **What a step that fails has done**, before it lets go of what it popped. -/
theorem step_error {s : Stop} (h : m.step = (some s, m')) : ∃ n w m₁, n ≤ 1 ∧ w.heap = m.world.heap ∧
    (m.current?.any (·.op.isLibCall) = false → w = m.world) ∧
    Popped (!m.current?.any (·.op.isRetriable)) { m with executed := m.executed + n, world := w } m₁ ∧
    m' = m₁.settle := by
  cases StepsTo.of_step h with
  | ended | limited => exact ⟨0, m.world, m, Nat.zero_le 1, rfl, fun _ => rfl, .refl m, rfl⟩
  | pastEnd => exact ⟨1, m.world, m.counted, Nat.le_refl 1, rfl, fun _ => rfl, .refl _, rfl⟩
  | @failed i s m₁ hcur _ ho =>
    obtain ⟨hd, -⟩ := current?_eq_some_iff.1 hcur
    obtain ⟨w, hw, hl, hp⟩ := Exec.op_backsOut i.op (m := m.counted) hd ho
    rw [hcur]
    exact ⟨1, w, m₁, Nat.le_refl 1, hw, hl, hp, rfl⟩

/-- **An instruction that fails leaves the program as it was**, short of operands of the latest frame that were popped.
Control, the frames and the heap are the same, and it counts at most once against the limit.  Unless it is a library
call, the console, the random generator and the files are the same as well, and a file that the program still leads to
is not released.  An instruction that looks a value up or leaves its frame has popped nothing, so it can be retried. -/
theorem failed_step {s : Stop} (h : m.step = (some s, m')) :
    m'.image = m.image ∧ m'.pc = m.pc ∧ m'.depth = m.depth ∧ m'.result = m.result ∧
    m.executed ≤ m'.executed ∧ m'.executed ≤ m.executed + 1 ∧
    (∃ k, m'.stack = m.stack.modifyHead (Frame.popped k)) ∧
    m'.world.heap = m.world.heap ∧
    (m.current?.any (·.op.isLibCall) = false →
      m'.world.console = m.world.console ∧ m'.world.random = m.world.random ∧ m'.world.files = m.world.files ∧
      ∃ freed : List FileId, m'.world = freed.foldl World.release m.world ∧
        ∀ id ∈ freed, (m.world.file? id).isSome → ¬ m.world.heap.Reaches m'.values (.file id)) ∧
    (m.current?.any (·.op.isRetriable) = true → m'.stack = m.stack) := by
  obtain ⟨n, hn, hst, -⟩ := step_some h
  obtain ⟨_, w, m₁, -, hw, hlib, ⟨k, loose, hk, hm₁⟩, rfl⟩ := step_error h
  have hstack : m₁.settle.stack = m.stack.modifyHead (Frame.popped k) := by rw [settle_stack, hm₁]
  have hworld : m₁.world = w := by rw [hm₁]
  obtain ⟨freed, hfreed, hreach⟩ := m₁.settle_world
  rw [← settle_values] at hreach
  rw [hworld] at hfreed hreach
  obtain ⟨hheap, hconsole, hrandom, hfiles⟩ := World.foldl_release_fixed freed w
  have hexec := hst.executed
  dsimp only at hexec
  refine ⟨hst.image, hst.pc, hst.depth, hst.result, by omega, by omega, ⟨k, hstack⟩, ?_, fun hl => ?_, fun hr => ?_⟩
  · rw [hfreed, hheap, hw]
  · obtain rfl := hlib hl
    rw [hfreed]
    exact ⟨hconsole, hrandom, hfiles, freed, rfl, hreach⟩
  · rw [hstack, hk (by rw [hr]; rfl), Popped.modifyHead_popped_zero]

/-- A sum under way whose operands are a truth value and a file that nothing else refers to, beside a file that a local
holds.  Both files owe text. -/
def mixedSum : Machine where
  image :=
    { code := #[⟨⟨1, 1⟩, .binInt .add⟩, ⟨⟨1, 1⟩, .halt 1⟩]
      labels := #[]
      strings := #[]
      classes := #[]
      scopes := #[.global ["log"]]
      globalScope := 0 }
  limits := {}
  pc := 0
  stack := [⟨0, 0, 0, [], [], [some (.file ⟨0⟩)], [.file ⟨1⟩, .bool true]⟩]
  executed := 4
  result := none
  suspended := []
  loose := []
  world :=
    { console := ⟨.script [], [], ""⟩
      random := .ofSeed 0
      files := #[⟨"./a", ["a"], .output true [65]⟩, ⟨"./b", ["b"], .output true [66]⟩] }

/-- The sum fails on the file: it is popped and, as its last reference is gone, released; the other operand and the
file in the local are not. -/
theorem failed_step_mixedSum :
    mixedSum.step.1 = some (.fault (.mismatch .integer (.file ⟨1⟩))) ∧
    mixedSum.step.2.pc = 0 ∧ mixedSum.step.2.executed = 5 ∧
    (∃ k, mixedSum.step.2.stack = mixedSum.stack.modifyHead (Frame.popped k)) ∧
    mixedSum.step.2.stack.map Frame.eval = [[.bool true]] ∧
    mixedSum.step.2.world.files = mixedSum.world.files ∧
    mixedSum.step.2.world.released = [⟨1⟩] := by
  have hs : mixedSum.step = (some (.fault (.mismatch .integer (.file ⟨1⟩))), mixedSum.step.2) := rfl
  obtain ⟨-, hpc, -, -, -, -, hstack, -, hworld, -⟩ := failed_step hs
  obtain ⟨-, -, hfiles, -⟩ := hworld rfl
  exact ⟨rfl, hpc, rfl, hstack, rfl, hfiles, rfl⟩

end Machine

end PseudoVm
