import PseudoVm.Library.Basic
import PseudoVm.Machine.Basic
/-!
# Machine.Trace: where a program stands

Each frame is at an instruction: the latest at the one to be executed, every other at the call that made the
frame above it.  A trace lists the frames with the arguments they were called with, the latest first; a frame
whose instruction lies outside the code is left out.

Naming a frame looks up its scope and shows its arguments, so traces are partial.
-/
namespace PseudoVm

/-- A frame, its number counted from 1 at the bottom, and the instruction it is at. -/
structure Activation where
  frame : Frame
  id : Nat
  instruction : Instruction
  pc : Nat

/-- One line of a trace. -/
structure TraceEntry where
  scope : String
  pos : SourcePos
  pc : Nat
  /-- Whether the line stands for a library function. -/
  isNative : Bool
  deriving DecidableEq, Repr

/-- A fault, where it happened, and the frames it happened in. -/
structure FaultReport where
  fault : Fault
  pc : Nat
  pos : SourcePos
  entries : List TraceEntry
  deriving DecidableEq, Repr

def traceLine (file : String) (line : Nat) (scope : String) : String :=
  file ++ ":" ++ toString line ++ ": in " ++ scope ++ "\n"

def FaultReport.trace (p : FaultReport) (file : String) : String :=
  String.join (p.entries.map fun e => traceLine file e.pos.line e.scope)

namespace Machine

/-- Frames with their instructions, given the offset that the latest is at. -/
def activationsFrom (m : Machine) : Nat → List Frame → List Activation
  | _, [] => []
  | pc, frame :: rest =>
    let callers := m.activationsFrom frame.returnPc rest
    match m.instruction? pc with
    | some i => ⟨frame, rest.length + 1, i, pc⟩ :: callers
    | none => callers

/-- Every frame with the instruction it is at, the latest first. -/
def activations (m : Machine) : List Activation := m.activationsFrom m.pc m.stack

/-- A frame by name and arguments; that of the whole program by name alone. -/
def frameText (m : Machine) (f : Frame) : Except Abort String :=
  match m.image.scopes[f.scope]? with
  | none => .error .badIndex
  | some scope =>
    if scope.isGlobal then .ok scope.name
    else
      match f.args.mapM m.world.heap.inspect? with
      | none => .error .deadlock
      | some args => .ok (scope.name ++ "(" ++ String.intercalate "," args ++ ")")

/-- The lines for a frame: a library function that it is calling, then the frame itself. -/
def entriesOf (m : Machine) (a : Activation) : Except Abort (List TraceEntry) := do
  let own : TraceEntry := ⟨← m.frameText a.frame, a.instruction.pos, a.pc, false⟩
  match a.instruction.op with
  | .libCall index _ => return [⟨libraryName index, a.instruction.pos, a.pc, true⟩, own]
  | _ => return [own]

/-- A fault with the trace of where the machine stands. -/
def report (m : Machine) (f : Fault) : Except Abort FaultReport := do
  let entries ← m.activations.mapM m.entriesOf
  return ⟨f, m.pc, m.pos, entries.flatten⟩

def stackTrace (m : Machine) (file : String) : Except Abort String := do
  let lines ← m.activations.mapM fun a => do
    return traceLine file a.instruction.pos.line (← m.frameText a.frame)
  return String.join lines

end Machine

end PseudoVm
