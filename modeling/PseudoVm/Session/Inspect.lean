import PseudoVm.Session.Basic
/-!
# Session.Inspect: looking into a program

Frames are shown with their variables by name.  Variables can be overwritten, and code evaluated in the context
of a frame.
-/
namespace PseudoVm

/-- A frame as a debugger shows it. -/
structure FrameView where
  /-- Counted from 1 at the bottom. -/
  id : Nat
  scope : String
  pos : SourcePos
  pc : Nat
  /-- Parameters with their current values. -/
  args : List (String × Value)
  locals : List (String × Option Value)
  globals : List (String × Option Value)
  deriving Repr

/-- A variable of a frame. -/
inductive Variable
  | param (slot : Nat)
  | local (slot : Nat)
  | global (slot : Nat)
  deriving DecidableEq, Repr

/-- The cell of a variable of the frame with a number counted from the bottom. -/
def Variable.cell (frame : Nat) : Variable → Reference
  | .param slot => .param frame slot
  | .local slot => .local frame slot
  | .global slot => .global slot

namespace Machine

/-- The globals by name; a finished program has none. -/
def globalViews? (m : Machine) : Option (List (String × Option Value)) :=
  match m.stack.getLast? with
  | none => some []
  | some f => m.image.global?.map fun scope => scope.locals.zip f.locals

def view? (m : Machine) (globals : List (String × Option Value)) (a : Activation) : Option FrameView :=
  (m.image.scopes[a.frame.scope]?).map fun scope =>
    { id := a.id, scope := scope.name, pos := a.instruction.pos, pc := a.pc,
      args := scope.params.zip a.frame.params,
      locals := if scope.isGlobal then [] else scope.locals.zip a.frame.locals,
      globals := globals }

/-- The frames as shown, the latest first. -/
def views? (m : Machine) : Option (List FrameView) := do
  let globals ← m.globalViews?
  m.activations.mapM (m.view? globals)

end Machine

namespace Session

/-- The frames as shown, the latest first; a program that is not debugged shows none. -/
def frames? (s : Session) : Option (List FrameView) := if s.noDebug then some [] else s.machine.views?

/-- Whether a frame with a number counted from 1 is live. -/
def hasFrame (s : Session) (id : Nat) : Bool := id != 0 && id ≤ s.machine.depth

def setVariable (s : Session) (id : Nat) (which : Variable) (v : Value) : Except SessionError Session :=
  if s.hasFrame id then
    match s.machine.assign (which.cell (id - 1)) v with
    | .ok m => .ok { s with machine := m }
    | .error f => .error (.runtime f)
  else .error (.invalidFrame id)

def evaluate (s : Session) (id : Nat) (code : List Instruction) : Except Abort (Except SessionError Value) × Session :=
  if s.hasFrame id then
    let (r, m) := s.machine.evaluate id code
    (r.map (·.mapError .evaluation), { s with machine := m })
  else (.ok (.error (.invalidFrame id)), s)

def position (s : Session) : Nat × SourcePos := (s.machine.pc, s.machine.pos)

def stackTrace (s : Session) : Except Abort String := s.machine.stackTrace s.file

end Session

end PseudoVm
