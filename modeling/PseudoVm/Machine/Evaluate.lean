import PseudoVm.Machine.Step
import PseudoVm.Machine.Trace
/-!
# Machine.Evaluate: runs with their traces, and evaluation beside a live program

A debugger evaluates an expression by running its code on a second machine, on a frame that starts out as a copy
of the chosen one.  The stack of the live program is not touched; the world is shared, so what the expression
does to arrays, objects, files and the console stays.
-/
namespace PseudoVm

namespace Machine

def explain (m : Machine) : Stop → Except Abort FaultReport
  | .fault f => m.report f
  | .abort a => .error a

/-- A run, with the trace of the fault that ended it. -/
def runTraced (m : Machine) : Except Abort (Option FaultReport) × Machine :=
  match m.run with
  | (none, m) => (.ok none, m)
  | (some s, m) => ((m.explain s).map some, m)

/-- The machine that evaluates code in the context of a frame. -/
def evaluator (m : Machine) (f : Frame) (code : List Instruction) : Machine :=
  let start := m.image.code.size
  { m with
    image := { m.image with code := m.image.code ++ code.toArray }
    pc := start
    stack := { f with start := start, returnPc := 0, eval := [] } :: m.stack
    executed := 0
    result := none
    suspended := m.stack ++ m.suspended }

/-- The value that an evaluation left, or the fault that ended it; and the world once the evaluator is gone.  The
value is for showing only: it is let go like everything else. -/
def evaluated (m : Machine) : Except Abort (Except FaultReport Value) × World :=
  match m.runTraced with
  | (.error a, m) => (.error a, m.leftWorld)
  | (.ok (some p), m) => (.ok (.error p), m.leftWorld)
  | (.ok none, m) =>
    match m.result with
    | some v => (.ok (.ok v), m.leftWorld)
    | none => ((m.report (.internal .noValue)).map .error, m.leftWorld)

/-- **Evaluates code in the context of the frame with a number**, counted from 1 at the bottom. -/
def evaluate (m : Machine) (id : Nat) (code : List Instruction) : Except Abort (Except FaultReport Value) × Machine :=
  match if id = 0 then none else m.frame? (id - 1) with
  | none => ((m.report (.internal (.frameNotFound id))).map .error, m)
  | some f =>
    let (r, world) := (m.evaluator f code).evaluated
    (r, { m with world := world })

end Machine

end PseudoVm
