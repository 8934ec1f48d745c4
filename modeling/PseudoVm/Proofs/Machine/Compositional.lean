import PseudoVm.Machine.Step
import PseudoVm.Proofs.Library.Faults
/-!
# Machine.Compositional: what holds of an instruction if it holds of its parts

Most instructions are put together from a few parts: operands are popped and pushed, cells read and written, values let
go.  A property that the parts have and that goes through sequencing is one that all of these instructions have
(`Exec.Compositional.op`).
-/
namespace PseudoVm

/-- Whether an instruction works on operands, cells and arrays of its own frame alone, and looks into no table. -/
def Op.isBasic : Op → Bool
  | .litStr _ | .arrayClone _ | .objNew .. | .libCall .. | .begin _ | .jump _ | .jumpTrue _ | .jumpFalse _ | .call ..
  | .vcall .. | .finish | .ret _ | .halt _ => false
  | _ => true

namespace Exec

/-- **A property that the parts of instructions have**, and that sequences have if their members have it. -/
structure Compositional (P : ∀ α : Type, Exec α → Prop) : Prop where
  pure : ∀ {α : Type} (a : α), P α (pure a)
  bind : ∀ {α β : Type} {x : Exec α} {k : α → Exec β}, P α x → (∀ a, P β (k a)) → P β (x >>= k)
  holding : ∀ {α : Type} {vs : List Value} {x : Exec α}, P α x → P α (holding vs x)
  fault : ∀ {α : Type} {f : Fault}, f.isPlain = true → P α (fault f)
  top : P Frame top
  setEval : ∀ eval, P Unit (setEval eval)
  letGo : ∀ vs, P Unit (letGo vs)
  load : ∀ r, P Value (load r)
  store : ∀ r v, P Unit (store r v)
  topNumber : P Nat topNumber
  heap : P Heap heap
  setHeap : ∀ h : Heap, P Unit (modify (·.setHeap h))
  field : ∀ cls object index, P Value (field cls object index)

namespace Compositional

variable {P : ∀ α : Type, Exec α → Prop} (hP : Compositional P) {α : Type}

include hP

/-! ## Operands -/

theorem check {r : Except Fault α} (hr : Ordinary r) : P α (check r) := by
  unfold Exec.check
  split
  · exact hP.pure _
  · exact hP.fault (Fault.isPlain_of_isOfOperation (hr _ rfl))

theorem push (v : Value) : P Unit (push v) := hP.bind hP.top fun _ => hP.setEval _

theorem pop : P Value pop := by
  refine hP.bind hP.top fun f => ?_
  split
  · exact hP.bind (hP.setEval _) fun _ => hP.pure _
  · exact hP.fault rfl

theorem popMany (n : Nat) : P (List Value) (popMany n) := by
  refine hP.bind hP.top fun f => ?_
  dsimp only
  split
  · exact hP.bind (hP.fault rfl) fun _ => hP.bind (hP.setEval _) fun _ => hP.pure _
  · exact hP.bind (hP.setEval _) fun _ => hP.pure _

theorem popAs {as : Value → Except Fault α} (has : ∀ v, Ordinary (as v)) : P α (popAs as) :=
  hP.bind hP.pop fun v => hP.bind (hP.letGo [v]) fun _ => hP.check (has v)

theorem pushArray (items : List Value) : P Unit (pushArray items) :=
  hP.bind hP.heap fun _ => hP.bind (hP.setHeap _) fun _ => hP.push _

theorem param (slot : Nat) : P Value (param slot) := by
  refine hP.bind hP.top fun f => ?_
  split
  · exact hP.pure _
  · exact hP.fault rfl

theorem elementRef (kind : Container) (container : Value) (index : Int64) :
    P Reference (elementRef kind container index) := by
  cases kind with
  | string => exact hP.fault rfl
  | array =>
    exact hP.bind (hP.check (ordinary_asArray _)) fun _ => hP.bind hP.heap fun _ =>
      hP.bind (hP.check (Operators.ordinary_offset _ _)) fun _ => hP.pure _
  | object =>
    exact hP.bind (hP.check (ordinary_asObject _)) fun _ => hP.bind hP.heap fun _ =>
      hP.bind (hP.check (Operators.ordinary_offset _ _)) fun _ => hP.pure _

theorem elementVal (kind : Container) (container : Value) (index : Int64) :
    P Value (elementVal kind container index) := by
  cases kind with
  | string =>
    exact hP.bind (hP.check (ordinary_asStr _)) fun _ =>
      hP.bind (hP.check (Operators.ordinary_offset _ _)) fun _ => hP.pure _
  | array =>
    exact hP.bind hP.heap fun _ => hP.bind (hP.check (ordinary_asArray _)) fun _ =>
      hP.bind (hP.check (Operators.ordinary_offset _ _)) fun _ => hP.pure _
  | object =>
    exact hP.bind (hP.check (ordinary_asObject _)) fun _ => hP.bind hP.heap fun _ =>
      hP.bind (hP.check (Operators.ordinary_offset _ _)) fun _ => hP.field _ _ _

/-! ## Operators and loops -/

theorem binary {as : Value → Except Fault α} {f : α → α → Except Fault Value} (has : ∀ v, Ordinary (as v))
    (hf : ∀ a b, Ordinary (f a b)) : P Unit (binary as f) :=
  hP.bind (hP.popAs has) fun b => hP.bind (hP.popAs has) fun a => hP.bind (hP.check (hf a b)) fun _ => hP.push _

theorem binaryStr (op : BinaryOp) : P Unit (binaryStr op) :=
  hP.bind hP.pop fun b => hP.holding <| hP.bind hP.pop fun a => hP.holding <|
    hP.bind (hP.check (ordinary_asStr a)) fun _ => hP.bind (hP.check (ordinary_asStr b)) fun _ =>
      hP.bind (hP.check (Operators.ordinary_strings op _ _)) fun _ => hP.push _

theorem unary {as : Value → Except Fault α} (f : α → Value) (has : ∀ v, Ordinary (as v)) : P Unit (unary as f) :=
  hP.bind (hP.popAs has) fun _ => hP.push _

theorem increment {as : Value → Except Fault α} (f : α → Value) (has : ∀ v, Ordinary (as v)) :
    P Unit (increment as f) :=
  hP.bind (hP.popAs ordinary_asReference) fun r => hP.bind (hP.load r) fun v => hP.bind (hP.check (has v)) fun _ =>
    hP.store r _

theorem storeChar : P Unit storeChar :=
  hP.bind (hP.popAs ordinary_asInt) fun _ => hP.bind (hP.popAs ordinary_asReference) fun r => hP.holding <|
    hP.bind (hP.popAs ordinary_asChar) fun _ => hP.bind (hP.load r) fun v => hP.bind (hP.check (ordinary_asStr v)) fun _ =>
      hP.bind (hP.check (Operators.ordinary_offset _ _)) fun _ => hP.store r _

theorem forInit (kind : Counter) : P Unit (forInit kind) :=
  hP.bind hP.pop fun _ => hP.holding <| hP.bind hP.pop fun _ => hP.holding <| hP.bind hP.pop fun _ => hP.holding <|
    hP.bind (hP.popAs ordinary_asReference) fun r => hP.holding <|
      hP.bind (hP.check (Operators.ordinary_continues kind _ _ _)) fun _ => hP.bind (hP.store r _) fun _ => hP.push _

theorem forStep (kind : Counter) : P Unit (forStep kind) :=
  hP.bind hP.pop fun _ => hP.holding <| hP.bind hP.pop fun _ => hP.holding <|
    hP.bind (hP.popAs ordinary_asReference) fun r => hP.bind (hP.load r) fun _ =>
      hP.bind (hP.check (Operators.ordinary_advance kind _ _)) fun _ =>
        hP.bind (hP.check (Operators.ordinary_continues kind _ _ _)) fun _ =>
          hP.bind (hP.store r _) fun _ => hP.push _

/-! ## Instructions -/

theorem condJump {yes no : Exec Flow} (hy : P Flow yes) (hn : P Flow no) :
    P Flow (do if ← Exec.popAs Value.asBool then yes else no : Exec Flow) := by
  refine hP.bind (hP.popAs ordinary_asBool) fun b => ?_
  split
  · exact hy
  · exact hn

/-- **A basic instruction is a plain act with the property**, if the value behind a parameter is found by one. -/
theorem exists_plain (hpointee : ∀ slot, P Value (pointee slot)) (o : Op) (ho : o.isBasic = true) :
    ∃ act : Exec Unit, op o = plain act ∧ P Unit act := by
  cases o
  case litStr | arrayClone | objNew | libCall | begin | jump | jumpTrue | jumpFalse | call | vcall | finish | ret | halt =>
    cases ho
  case unInt u => cases u <;> exact ⟨_, rfl, by first | exact hP.unary _ ordinary_asInt | exact hP.fault rfl⟩
  case unReal u => cases u <;> exact ⟨_, rfl, by first | exact hP.unary _ ordinary_asReal | exact hP.fault rfl⟩
  case unBool u => cases u <;> exact ⟨_, rfl, by first | exact hP.unary _ ordinary_asBool | exact hP.fault rfl⟩
  all_goals refine ⟨_, rfl, ?_⟩
  case litInt | litReal | litBool | litChar | globalRef => exact hP.push _
  case globalVal => exact hP.bind (hP.load _) fun _ => hP.push _
  case localRef | paramRef => exact hP.bind hP.topNumber fun _ => hP.push _
  case localVal => exact hP.bind hP.topNumber fun _ => hP.bind (hP.load _) fun _ => hP.push _
  case paramVal => exact hP.bind (hP.param _) fun _ => hP.push _
  case paramPtr => exact hP.bind (hpointee _) fun _ => hP.push _
  case fieldRef => exact hP.bind (hP.popAs ordinary_asObject) fun _ => hP.push _
  case fieldVal => exact hP.bind (hP.popAs ordinary_asObject) fun _ => hP.bind (hP.field _ _ _) fun _ => hP.push _
  case store => exact hP.bind (hP.popAs ordinary_asReference) fun r => hP.holding (hP.bind hP.pop fun v => hP.store r v)
  case storeChar => exact hP.storeChar
  case deref => exact hP.bind (hP.popAs ordinary_asReference) fun r => hP.bind (hP.load r) fun _ => hP.push _
  case binInt b => exact hP.binary ordinary_asInt (Operators.ordinary_ints b)
  case binReal b => exact hP.binary ordinary_toReal (Operators.ordinary_reals b)
  case binStr b => exact hP.binaryStr b
  case binChar b => exact hP.binary ordinary_asChar (Operators.ordinary_chars b)
  case binBool b => exact hP.binary ordinary_asBool (Operators.ordinary_bools b)
  case intToReal => exact hP.unary _ ordinary_asInt
  case realToInt => exact hP.unary _ ordinary_asReal
  case incrInt => exact hP.increment _ ordinary_asInt
  case incrReal => exact hP.increment _ ordinary_asReal
  case forInit kind => exact hP.forInit kind
  case forStep kind => exact hP.forStep kind
  case offsetRef kind =>
    exact hP.bind (hP.popAs ordinary_asInt) fun _ => hP.bind hP.pop fun _ =>
      hP.holding (hP.bind (hP.elementRef kind _ _) fun _ => hP.push _)
  case offsetVal kind =>
    exact hP.bind (hP.popAs ordinary_asInt) fun _ => hP.bind hP.pop fun _ =>
      hP.holding (hP.bind (hP.elementVal kind _ _) fun _ => hP.push _)
  case arrayNew size => exact hP.bind (hP.popMany size) fun _ => hP.pushArray _
  case arrayLen => exact hP.bind (hP.popAs ordinary_asArray) fun _ => hP.bind hP.heap fun _ => hP.push _
  case dup => exact hP.bind hP.pop fun _ => hP.bind (hP.push _) fun _ => hP.push _
  case pop => exact hP.bind hP.pop fun v => hP.letGo [v]

theorem plain {act : Exec Unit} (hact : P Unit act) : P Flow (plain act) := hP.bind hact fun _ => hP.pure _

theorem op (hpointee : ∀ slot, P Value (pointee slot)) (o : Op) (ho : o.isBasic = true) : P Flow (op o) := by
  obtain ⟨act, hop, hact⟩ := hP.exists_plain hpointee o ho
  rw [hop]
  exact hP.plain hact

end Compositional

end Exec

end PseudoVm
