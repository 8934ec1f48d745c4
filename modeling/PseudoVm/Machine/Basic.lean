import PseudoVm.Machine.Frame
import PseudoVm.World.Release
/-!
# Machine.Basic: a program under execution

A machine holds an image, a call stack and the world it acts on.  The bottom frame belongs to the whole program,
and its locals are the program's globals.  An empty call stack means that the program has finished.

What a machine no longer holds is let go in the order of `loose`, after every instruction and every change from
outside (`settle`).
-/
namespace PseudoVm

/-- What an execution may use up. -/
structure Limits where
  maxInstructions : Nat := 0x40000000
  maxStackDepth : Nat := 1024
  deriving DecidableEq, Repr, Inhabited

/-- A running or finished program. -/
structure Machine where
  image : Image
  limits : Limits
  pc : Nat
  /-- Frames, the latest first. -/
  stack : List Frame
  /-- Instructions started so far. -/
  executed : Nat
  /-- The value that the program left. -/
  result : Option Value
  /-- Frames of the program that waits for this one; what they hold is not let go. -/
  suspended : List Frame
  /-- Values to be let go, the first to go first. -/
  loose : List Value
  world : World

namespace Machine

/-- The frame of the whole program: `none` if the image names no such scope. -/
def bottom? (image : Image) : Option Frame :=
  image.global?.map fun scope => Frame.fresh image.globalScope 0 0 [] scope.locals.length

def create? (image : Image) (limits : Limits) (world : World) : Option Machine :=
  (bottom? image).map fun frame => ⟨image, limits, 0, [frame], 0, none, [], [], world⟩

def depth (m : Machine) : Nat := m.stack.length

def isDone (m : Machine) : Bool := m.stack.isEmpty

def instruction? (m : Machine) (pc : Nat) : Option Instruction := m.image.code[pc]?

def current? (m : Machine) : Option Instruction := if m.isDone then none else m.instruction? m.pc

/-- The source position of the instruction to be executed next. -/
def pos (m : Machine) : SourcePos := (m.current?.map (·.pos)).getD .unknown

def values (m : Machine) : List Value :=
  m.stack.reverse.flatMap Frame.values ++ m.result.toList ++ m.suspended.flatMap Frame.values

/-- Puts values among those to be let go, if they refer to storage. -/
def letGo (m : Machine) (vs : List Value) : Machine :=
  match vs.filter (·.storage?.isSome) with
  | [] => m
  | vs => { m with loose := m.loose ++ vs }

/-- Lets go of what is to be let go, which shows only if some file owes text. -/
def settle (m : Machine) : Machine :=
  if m.loose.isEmpty then m
  else if m.world.owesText then { m with world := m.world.letGo m.values m.loose, loose := [] }
  else { m with loose := [] }

/-- The program started over; the world stays, short of what only the program held. -/
def rewind (m : Machine) : Machine :=
  ({ m with stack := (bottom? m.image).toList, pc := 0, executed := 0, result := none }.letGo
    (m.stack.reverse.flatMap Frame.values ++ m.result.toList)).settle

/-- Returns to the frame with a number, counted from 1 at the bottom, and starts it again.
`none` if there is no such frame. -/
def restartFrame? (m : Machine) (id : Nat) : Option Machine :=
  if id = 0 then none
  else if m.depth < id then none
  else
    match m.stack.drop (m.depth - id) with
    | [] => none
    | top :: rest =>
      let left := (m.stack.take (m.depth - id)).reverse
      some ({ m with stack := top.reset :: rest, pc := top.start }.letGo
        (left.flatMap Frame.values ++ top.params ++ top.locals.filterMap (·) ++ top.eval.reverse)).settle

/-- **The world once the machine is gone**: its frames are let go from the bottom up, then the value it left. -/
def leftWorld (m : Machine) : World :=
  ({ m with stack := [], result := none }.letGo
    (m.stack.reverse.flatMap Frame.values ++ m.result.toList)).settle.world

end Machine

end PseudoVm
