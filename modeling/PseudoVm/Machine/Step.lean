import PseudoVm.Library.Call
import PseudoVm.Machine.Operators
import PseudoVm.Machine.Storage
/-!
# Machine.Step: what an instruction does

Operands are popped from right to left.  An instruction that fails leaves the machine where it was, short of the
operands it had popped: whatever it writes or pushes comes after everything that can fail.

An operand that was popped is to be let go as soon as it has been looked at (`popAs`), or when the instruction is
through with it (`holding`), the latest first.  A value that went on to another place is still held there.
-/
namespace PseudoVm

/-- An instruction under way: it changes the machine, and may stop early with what it changed. -/
abbrev Exec := EStateM Stop Machine

/-- Where control goes after an instruction. -/
inductive Flow
  | next
  | jump (target : Nat)
  deriving DecidableEq, Repr

namespace Exec

def fault {α : Type} (f : Fault) : Exec α := throw (.fault f)

def check {α : Type} (r : Except Fault α) : Exec α :=
  match r with
  | .ok a => return a
  | .error f => fault f

def require {α : Type} (a : Option α) : Exec α :=
  match a with
  | some a => return a
  | none => throw (.abort .badIndex)

/-- The latest frame. -/
def top : Exec Frame := do
  match (← get).stack with
  | frame :: _ => return frame
  | [] => fault (.internal .noFrame)

/-- Changes the operands of the latest frame. -/
def setEval (eval : List Value) : Exec Unit := modify fun m =>
  match m.stack with
  | frame :: rest => { m with stack := { frame with eval := eval } :: rest }
  | [] => m

def push (v : Value) : Exec Unit := do setEval (v :: (← top).eval)

def pop : Exec Value := do
  match (← top).eval with
  | v :: rest =>
    setEval rest
    return v
  | [] => fault .evalStackUnderflow

/-- Pops operands together, in the order they were pushed. -/
def popMany (n : Nat) : Exec (List Value) := do
  let eval := (← top).eval
  if eval.length < n then fault .evalStackUnderflow
  setEval (eval.drop n)
  return (eval.take n).reverse

def letGo (vs : List Value) : Exec Unit := modify (·.letGo vs)

/-- Something done with values in hand; they are to be let go when it has ended, one way or the other. -/
def holding {α : Type} (vs : List Value) (act : Exec α) : Exec α := fun m =>
  match act m with
  | .ok a m => .ok a (m.letGo vs)
  | .error s m => .error s (m.letGo vs)

def popAs {α : Type} (as : Value → Except Fault α) : Exec α := do
  let v ← pop
  letGo [v]
  check (as v)

def load (r : Reference) : Exec Value := do
  match (← get).load r with
  | .ok v => return v
  | .error s => throw s

def store (r : Reference) (v : Value) : Exec Unit := do
  match (← get).store r v with
  | .ok m => set m
  | .error f =>
    letGo [v]
    fault f

/-- The number of the latest frame, counted from the bottom. -/
def topNumber : Exec Nat := do
  let depth := (← get).depth
  if depth = 0 then fault (.internal .noFrame)
  return depth - 1

def heap : Exec Heap := return (← get).world.heap

def pushArray (items : List Value) : Exec Unit := do
  let (id, heap) := (← heap).newArray items.toArray
  modify (·.setHeap heap)
  push (.array id)

/-- A parameter of the latest frame. -/
def param (slot : Nat) : Exec Value := do
  match (← top).params[slot]? with
  | some v => return v
  | none => fault (.internal (.paramOutOfRange slot))

/-- A field of an object, named by its class in messages. -/
def field (cls : ClassId) (object : ObjectId) (index : Nat) : Exec Value := do
  match ((← heap).fields? object |>.getD #[])[index]? with
  | some (some v) => return v
  | some none =>
    let names := ((← get).image.classes[cls]?.map (·.fields)).getD []
    fault (.readBeforeAssignment .field (Machine.slotName names index))
  | none => fault (.internal (.fieldOutOfRange index))

/-- The value behind a parameter that holds a reference; a cell never assigned is named by the parameter. -/
def pointee (slot : Nat) : Exec Value := do
  let r ← check (← param slot).asReference
  let m ← get
  match m.load r with
  | .ok v => return v
  | .error (.fault (.readBeforeAssignment _ _)) =>
    let scope ← require m.image.scopes[(← top).scope]?
    fault (.readBeforeAssignment .param (scope.params[slot]?.getD ""))
  | .error s => throw s

def elementRef (kind : Container) (container : Value) (index : Int64) : Exec Reference := do
  match kind with
  | .string => fault (.badInstruction .stringElement)
  | .array =>
    let id ← check container.asArray
    return .element id (← check (Operators.offset index ((← heap).items? id |>.getD #[]).size))
  | .object =>
    let (_, id) ← check container.asObject
    return .field id (← check (Operators.offset index ((← heap).fields? id |>.getD #[]).size))

def elementVal (kind : Container) (container : Value) (index : Int64) : Exec Value := do
  match kind with
  | .string =>
    let bytes ← check container.asStr
    return .char (bytes.getD (← check (Operators.offset index bytes.length)) 0)
  | .array =>
    let items := (← heap).items? (← check container.asArray) |>.getD #[]
    return items.getD (← check (Operators.offset index items.size)) (.bool false)
  | .object =>
    let (cls, id) ← check container.asObject
    field cls id (← check (Operators.offset index ((← heap).fields? id |>.getD #[]).size))

def jump (label : LabelId) : Exec Flow := do return .jump (← require ((← get).image.labelPc? label))

def enter (target : Nat) (scope : ScopeId) (args : List Value) : Exec Flow := do
  let m ← get
  if m.limits.maxStackDepth ≤ m.depth then fault .stackOverflow
  match m.image.scopes[scope]? with
  | none => fault (.internal (.scopeNotFound scope))
  | some s =>
    set { m with stack := Frame.fresh scope target m.pc args s.locals.length :: m.stack }
    return .jump target

/-- Leaves the latest frame and hands its operands, of which there have to be `nval`, to its caller. -/
def leave (nval : Nat) : Exec Flow := do
  let m ← get
  match m.stack with
  | [] => fault (.internal .noFrame)
  | frame :: rest =>
    if frame.eval.length ≠ nval then fault (.returnArity nval frame.eval.length)
    match rest with
    | [] =>
      set ({ m with stack := [] }.letGo frame.values)
      return .next
    | caller :: rest =>
      set ({ m with stack := { caller with eval := frame.eval ++ caller.eval } :: rest }.letGo frame.cellValues)
      return .jump (frame.returnPc + 1)

/-- Ends the program and keeps the latest of its `nval` operands. -/
def stop (nval : Nat) : Exec Flow := do
  let eval := (← top).eval
  if eval.length ≠ nval then fault (.returnArity nval eval.length)
  modify fun m => { m with result := eval.head?, stack := [] }.letGo
    (m.result.toList ++ m.stack.reverse.flatMap Frame.values)
  return .next

def method (receiver : Value) (slot : Nat) : Exec Method := do
  let (cls, _) ← check receiver.asObject
  match (← get).image.classes[cls]?.bind fun c => c.methods[slot]? with
  | some m => return m
  | none => fault (.badInstruction (.noVirtualSlot slot))

def act {α : Type} (a : Library.Act α) : Exec α :=
  fun ⟨image, limits, pc, stack, executed, result, suspended, loose, world⟩ =>
    match a world with
    | .ok v world => .ok v ⟨image, limits, pc, stack, executed, result, suspended, loose, world⟩
    | .error s world => .error s ⟨image, limits, pc, stack, executed, result, suspended, loose, world⟩

def callLibrary (index nargs : Nat) : Exec Flow := do
  let args ← popMany nargs
  holding args do
    match LibraryFunction.ofIndex? index with
    | none => fault (.unknownLibFunction index)
    | some f =>
      match ← act (Library.call f args) with
      | some v => push v
      | none => pure ()
      return .next

/-- Pops two operands of a type and pushes what an operator makes of them. -/
def binary {α : Type} (as : Value → Except Fault α) (f : α → α → Except Fault Value) : Exec Unit := do
  let b ← popAs as
  let a ← popAs as
  push (← check (f a b))

/-- Pops two strings and pushes what an operator makes of them; both are popped before either is checked. -/
def binaryStr (op : BinaryOp) : Exec Unit := do
  let b ← pop
  holding [b] do
    let a ← pop
    holding [a] do
      let a ← check a.asStr
      let b ← check b.asStr
      push (← check (Operators.strings op a b))

/-- Pops an operand of a type and pushes what a function makes of it. -/
def unary {α : Type} (as : Value → Except Fault α) (f : α → Value) : Exec Unit := do push (f (← popAs as))

def undefined (op : UnaryOp) : Exec Unit := fault (.badInstruction (.unaryUndefined op.name))

def increment {α : Type} (as : Value → Except Fault α) (f : α → Value) : Exec Unit := do
  let r ← popAs Value.asReference
  let current ← check (as (← load r))
  store r (f current)

def storeChar : Exec Unit := do
  let index ← popAs Value.asInt
  let r ← popAs Value.asReference
  holding [.ref r] do
    let c ← popAs Value.asChar
    let bytes ← check (← load r).asStr
    let i ← check (Operators.offset index bytes.length)
    store r (.str (bytes.set i c))

def forInit (kind : Counter) : Exec Unit := do
  let step ← pop
  holding [step] do
    let stop ← pop
    holding [stop] do
      let start ← pop
      holding [start] do
        let r ← popAs Value.asReference
        holding [.ref r] do
          let more ← check (Operators.continues kind start stop step)
          store r start
          push (.bool more)

def forStep (kind : Counter) : Exec Unit := do
  let step ← pop
  holding [step] do
    let stop ← pop
    holding [stop] do
      let r ← popAs Value.asReference
      let next ← check (Operators.advance kind (← load r) step)
      let more ← check (Operators.continues kind next stop step)
      store r next
      push (.bool more)

def copyArray (dims : Nat) : Exec Unit := do
  let v ← pop
  holding [v] do
    let _ ← check v.asArray
    match (← heap).copy? dims v with
    | none => throw (.abort .deadlock)
    | some (copy, heap) =>
      modify (·.setHeap heap)
      push copy

def newObject (cls : ClassId) (nfields : Nat) : Exec Unit := do
  if Bound.block < nfields * Heap.fieldSize then throw (.abort .noRoom)
  let (id, heap) := (← heap).newObject (Array.replicate nfields none)
  modify (·.setHeap heap)
  push (.object cls id)

def plain (act : Exec Unit) : Exec Flow := do
  act
  return .next

/-- **What each instruction does.** -/
def op : Op → Exec Flow
  | .litInt n => plain (push (.int n))
  | .litReal x => plain (push (.real x))
  | .litBool b => plain (push (.bool b))
  | .litChar c => plain (push (.char c))
  | .litStr id => plain do
    match (← get).image.strings[id]? with
    | some s => push (.text s)
    | none => fault (.internal (.stringNotFound id))
  | .globalRef slot => plain (push (.ref (.global slot)))
  | .globalVal slot => plain do push (← load (.global slot))
  | .localRef slot => plain do push (.ref (.local (← topNumber) slot))
  | .localVal slot => plain do push (← load (.local (← topNumber) slot))
  | .paramRef slot => plain do push (.ref (.param (← topNumber) slot))
  | .paramVal slot => plain do push (← param slot)
  | .paramPtr slot => plain do push (← pointee slot)
  | .fieldRef index => plain do push (.ref (.field (← popAs Value.asObject).2 index))
  | .fieldVal index => plain do
    let (cls, id) ← popAs Value.asObject
    push (← field cls id index)
  | .store => plain do
    let r ← popAs Value.asReference
    holding [.ref r] do store r (← pop)
  | .storeChar => plain storeChar
  | .deref => plain do push (← load (← popAs Value.asReference))
  | .binInt b => plain (binary Value.asInt (Operators.ints b))
  | .binReal b => plain (binary Value.toReal (Operators.reals b))
  | .binStr b => plain (binaryStr b)
  | .binChar b => plain (binary Value.asChar (Operators.chars b))
  | .binBool b => plain (binary Value.asBool (Operators.bools b))
  | .unInt .neg => plain (unary Value.asInt fun a => .int (-a))
  | .unReal .neg => plain (unary Value.asReal fun a => .real (-a))
  | .unBool .not => plain (unary Value.asBool fun a => .bool (!a))
  | .unInt u | .unReal u | .unBool u => plain (undefined u)
  | .intToReal => plain (unary Value.asInt fun a => .real a.toFloat)
  | .realToInt => plain (unary Value.asReal fun a => .int a.toInt64)
  | .incrInt delta => plain (increment Value.asInt fun a => .int (a + delta))
  | .incrReal delta => plain (increment Value.asReal fun a => .real (a + delta))
  | .forInit kind => plain (forInit kind)
  | .forStep kind => plain (forStep kind)
  | .offsetRef kind => plain do
    let index ← popAs Value.asInt
    let container ← pop
    holding [container] do push (.ref (← elementRef kind container index))
  | .offsetVal kind => plain do
    let index ← popAs Value.asInt
    let container ← pop
    holding [container] do push (← elementVal kind container index)
  | .arrayNew size => plain do pushArray (← popMany size)
  | .arrayClone dims => plain (copyArray dims)
  | .arrayLen => plain do
    let id ← popAs Value.asArray
    push (.int (Int64.ofNat ((← heap).items? id |>.getD #[]).size))
  | .objNew cls nfields => plain (newObject cls nfields)
  | .jump label => jump label
  | .jumpTrue label => do if ← popAs Value.asBool then jump label else return .next
  | .jumpFalse label => do if ← popAs Value.asBool then return .next else jump label
  | .begin _ => return .next
  | .finish => leave 0
  | .ret nval => leave nval
  | .call label scope nargs => do
    let args ← popMany nargs
    holding args do
      let target ← require ((← get).image.labelPc? label)
      enter target scope args
  | .vcall _ slot nargs => do
    let args ← popMany nargs
    holding args do
      match args with
      | [] => fault .evalStackUnderflow
      | receiver :: _ =>
        let m ← method receiver slot
        let target ← require ((← get).image.labelPc? m.label)
        enter target m.scope args
  | .halt nval => stop nval
  | .libCall index nargs => callLibrary index nargs
  | .dup => plain do
    let v ← pop
    push v
    push v
  | .pop => plain do letGo [← pop]

def instruction : Exec Unit := do
  let m ← get
  match m.instruction? m.pc with
  | none => fault (.badInstruction (.pastEnd m.pc))
  | some i =>
    match ← op i.op with
    | .next => modify fun m => { m with pc := m.pc + 1 }
    | .jump target => modify fun m => { m with pc := target }

/-- **Executes one instruction.**  Every instruction that is started counts against the limit. -/
def step : Exec Unit := do
  let m ← get
  if m.isDone then fault (.internal .alreadyFinished)
  if m.limits.maxInstructions ≤ m.executed then fault .instructionLimit
  modify fun m => { m with executed := m.executed + 1 }
  instruction

end Exec

namespace Machine

/-- Executes one instruction and lets go of what it left: why it stopped, if it did, and the machine after it. -/
def step (m : Machine) : Option Stop × Machine :=
  match Exec.step m with
  | .ok _ m => (none, m.settle)
  | .error s m => (some s, m.settle)

/-- Executes at most `fuel` instructions, until the program finishes or one fails. -/
def runFor : Nat → Machine → Option Stop × Machine
  | 0, m => (none, m)
  | fuel + 1, m =>
    if m.isDone then (none, m)
    else
      match m.step with
      | (none, m) => runFor fuel m
      | (some s, m) => (some s, m)

def budget (m : Machine) : Nat := m.limits.maxInstructions - m.executed + 1

/-- **Executes instructions until the program finishes or one fails.**  The limit on instructions ends every
run, so the fuel is never used up before. -/
def run (m : Machine) : Option Stop × Machine := m.runFor m.budget

end Machine

end PseudoVm
