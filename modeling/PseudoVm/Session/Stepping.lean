/-!
# Session.Stepping: when a step ends

A step request records where the program stood.  Before every instruction the request is asked whether the new
place ends the step.
-/
namespace PseudoVm

/-- How calls count while stepping. -/
inductive StepKind
  /-- Stop on the next place of this frame or of a caller. -/
  | over
  /-- Stop on the next place anywhere. -/
  | into
  /-- Stop when this frame has returned. -/
  | out
  deriving DecidableEq, Repr

/-- What counts as another place. -/
inductive Granularity
  | line | instruction
  deriving DecidableEq, Repr

/-- A place in a run: the instruction to be executed, its line, and the number of frames. -/
structure Place where
  pc : Nat
  line : Nat
  depth : Int
  deriving DecidableEq, Repr

/-- A step from a place. -/
structure StepRequest where
  kind : StepKind
  granularity : Granularity
  origin : Place
  deriving DecidableEq, Repr

namespace StepRequest

def moved (r : StepRequest) (now : Place) : Bool :=
  match r.granularity with
  | .line => now.line != r.origin.line
  | .instruction => now.pc != r.origin.pc

/-- **Whether a place ends the step.** -/
def shouldPause (r : StepRequest) (now : Place) : Bool :=
  match r.kind with
  | .over => now.depth < r.origin.depth || (now.depth == r.origin.depth && r.moved now)
  | .into => now.depth != r.origin.depth || r.moved now
  | .out => now.depth < r.origin.depth

end StepRequest

end PseudoVm
