import PseudoVm.Machine.Basic
/-!
# Machine.Storage: reading and writing through references

A reference names a global, a local or parameter of a live frame, an element of an array, or a field of an
object.  `peek` tells apart a cell that is not there from one that was never assigned; `load` refuses both, and
`store` only the first.
-/
namespace PseudoVm

namespace Machine

/-- The place of a frame in the stack, from its number counted from the bottom. -/
def place? (m : Machine) (frame : Nat) : Option Nat :=
  if frame < m.depth then some (m.depth - 1 - frame) else none

/-- The frame with a number counted from the bottom. -/
def frame? (m : Machine) (frame : Nat) : Option Frame := (m.place? frame).bind fun i => m.stack[i]?

/-- Changes the frame with a number counted from the bottom. -/
def modifyFrame (m : Machine) (frame : Nat) (f : Frame → Frame) : Machine :=
  match m.place? frame with
  | some i => { m with stack := m.stack.modify i f }
  | none => m

def setHeap (m : Machine) (heap : Heap) : Machine := { m with world := { m.world with heap := heap } }

/-- The fault of a frame that is missing: globals want the bottom frame, everything else one that has returned. -/
def missingFrame : Reference → Fault
  | .global _ => .internal .noFrame
  | _ => .internal .deadFrame

def noElement (index len : Nat) : Fault := .indexOutOfRange (Int64.ofNat index).toInt len

def localOf (f : Frame) (slot : Nat) : Except Fault (Option Value) :=
  match f.locals[slot]? with
  | some v => .ok v
  | none => .error (.internal (.slotOutOfRange slot))

def paramOf (f : Frame) (slot : Nat) : Except Fault Value :=
  match f.params[slot]? with
  | some v => .ok v
  | none => .error (.internal (.slotOutOfRange slot))

/-- What a cell holds: `none` if it was never assigned. -/
def peek (m : Machine) (r : Reference) : Except Fault (Option Value) :=
  match r with
  | .global slot =>
    match m.frame? 0 with
    | some f => localOf f slot
    | none => .error (missingFrame r)
  | .local frame slot =>
    match m.frame? frame with
    | some f => localOf f slot
    | none => .error (missingFrame r)
  | .param frame slot =>
    match m.frame? frame with
    | some f => (paramOf f slot).map some
    | none => .error (missingFrame r)
  | .element array index =>
    let items := (m.world.heap.items? array).getD #[]
    match items[index]? with
    | some v => .ok (some v)
    | none => .error (noElement index items.size)
  | .field object index =>
    match ((m.world.heap.fields? object).getD #[])[index]? with
    | some v => .ok v
    | none => .error (.internal (.fieldOutOfRange index))

/-- A slot in messages, by its name if it has one. -/
def slotName (names : List String) (slot : Nat) : String := names[slot]?.getD ("#" ++ toString slot)

/-- The names of a frame's parameters or locals; a frame that is not there has none.
`none` if the image lacks the frame's scope. -/
def namesOf? (m : Machine) (frame : Nat) (names : Scope → List String) : Option (List String) :=
  match m.frame? frame with
  | none => some []
  | some f => (m.image.scopes[f.scope]?).map names

def describe? (m : Machine) : Reference → Option (VarKind × String)
  | .global slot => m.image.global?.map fun s => (.global, slotName s.locals slot)
  | .local frame slot => (m.namesOf? frame (·.locals)).map fun names => (.local, slotName names slot)
  | .param frame slot => (m.namesOf? frame (·.params)).map fun names => (.param, slotName names slot)
  | .element _ index => some (.local, "element [" ++ toString index ++ "]")
  | .field _ index => some (.field, "#" ++ toString index)

def load (m : Machine) (r : Reference) : Except Stop Value :=
  match m.peek r with
  | .error f => .error (.fault f)
  | .ok (some v) => .ok v
  | .ok none =>
    match m.describe? r with
    | some (kind, name) => .error (.fault (.readBeforeAssignment kind name))
    | none => .error (.abort .badIndex)

/-- Puts a value into a local variable of a frame, with a fault for a frame that is missing. -/
def storeLocal (m : Machine) (frame slot : Nat) (missing : Fault) (v : Value) : Except Fault Machine :=
  match m.frame? frame with
  | none => .error missing
  | some f =>
    match f.locals[slot]? with
    | none => .error (.internal (.slotOutOfRange slot))
    | some old =>
      .ok ((m.modifyFrame frame fun f => { f with locals := f.locals.set slot (some v) }).letGo old.toList)

/-- Puts a value into a cell, assigned or not; what the cell held is to be let go. -/
def store (m : Machine) (r : Reference) (v : Value) : Except Fault Machine :=
  match r with
  | .global slot => m.storeLocal 0 slot (missingFrame r) v
  | .local frame slot => m.storeLocal frame slot (missingFrame r) v
  | .param frame slot =>
    match m.frame? frame with
    | none => .error (missingFrame r)
    | some f =>
      match f.params[slot]? with
      | none => .error (.internal (.slotOutOfRange slot))
      | some old => .ok ((m.modifyFrame frame fun f => { f with params := f.params.set slot v }).letGo [old])
  | .element array index =>
    let items := (m.world.heap.items? array).getD #[]
    match items[index]? with
    | none => .error (noElement index items.size)
    | some old => .ok ((m.setHeap (m.world.heap.setElement array index v)).letGo [old])
  | .field object index =>
    match ((m.world.heap.fields? object).getD #[])[index]? with
    | none => .error (.internal (.fieldOutOfRange index))
    | some old => .ok ((m.setHeap (m.world.heap.setField object index v)).letGo old.toList)

/-- What a store does to a cell that is there. -/
def write (m : Machine) (r : Reference) (v : Value) : Machine :=
  match r with
  | .global slot => m.modifyFrame 0 fun f => { f with locals := f.locals.set slot (some v) }
  | .local frame slot => m.modifyFrame frame fun f => { f with locals := f.locals.set slot (some v) }
  | .param frame slot => m.modifyFrame frame fun f => { f with params := f.params.set slot v }
  | .element array index => m.setHeap (m.world.heap.setElement array index v)
  | .field object index => m.setHeap (m.world.heap.setField object index v)

/-- **Stores and looks agree on which cells there are**: a store goes through just where a cell can be looked at, lets
go of what the look shows, and is refused as the look is. -/
theorem store_eq_peek (m : Machine) (r : Reference) (v : Value) : m.store r v =
    match m.peek r with
    | .error f => .error f
    | .ok old => .ok ((m.write r v).letGo old.toList) := by
  cases r with
  | global slot =>
    simp only [store, storeLocal, peek, localOf]
    cases m.frame? 0 with
    | none => rfl
    | some f => dsimp only; cases f.locals[slot]? <;> rfl
  | «local» frame slot =>
    simp only [store, storeLocal, peek, localOf]
    cases m.frame? frame with
    | none => rfl
    | some f => dsimp only; cases f.locals[slot]? <;> rfl
  | param frame slot =>
    simp only [store, peek, paramOf]
    cases m.frame? frame with
    | none => rfl
    | some f => dsimp only; cases f.params[slot]? <;> rfl
  | element array index =>
    simp only [store, peek]
    cases ((m.world.heap.items? array).getD #[])[index]? <;> rfl
  | field object index =>
    simp only [store, peek]
    cases ((m.world.heap.fields? object).getD #[])[index]? <;> rfl

/-- Puts a value into a cell from outside the program. -/
def assign (m : Machine) (r : Reference) (v : Value) : Except Fault Machine := (m.store r v).map settle

end Machine

end PseudoVm
