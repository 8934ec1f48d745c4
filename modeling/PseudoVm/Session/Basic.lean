import PseudoVm.Machine.Evaluate
import PseudoVm.Session.LineTable
import PseudoVm.Session.Stepping
/-!
# Session.Basic: a program under a debugger

A session runs its program in bursts.  A burst is worked off by a worker of its own, one at a time; every burst
ends in one outcome, which is reported as events.  What controllers and the worker do to the session happens in
sections that exclude each other, and every function on sessions is one such section or a sequence of them.
-/
namespace PseudoVm

/-- Where a session is in its life.  `halted` and `terminated` are final until a reset. -/
inductive RunState
  | running | paused | halted | terminated
  deriving DecidableEq, Repr

def RunState.text : RunState → String
  | .running => "running"
  | .paused => "paused"
  | .halted => "halted"
  | .terminated => "terminated"

def RunState.isFinal : RunState → Bool
  | .halted | .terminated => true
  | _ => false

/-- Why a burst paused. -/
inductive PauseReason
  | entry | pause | step | breakpoint
  deriving DecidableEq, Repr

def PauseReason.text : PauseReason → String
  | .entry => "entry"
  | .pause => "pause"
  | .step => "step"
  | .breakpoint => "breakpoint"

/-- What a session reports. -/
inductive Event
  | paused (reason : PauseReason)
  /-- A fault paused the program. -/
  | exception (report : FaultReport)
  /-- A fault ended a program that is not debugged. -/
  | failed (report : FaultReport)
  | exited (code : Nat)
  | terminated
  deriving DecidableEq, Repr

/-- How a burst ended. -/
inductive Outcome
  | paused (reason : PauseReason)
  | exception (report : FaultReport)
  | failed (report : FaultReport)
  | finished
  | terminated
  | halted
  /-- The worker broke down. -/
  | crashed
  /-- The worker waits for ever. -/
  | hung
  deriving DecidableEq, Repr

/-- Why a session refuses a request. -/
inductive SessionError
  | alreadyRunning
  | finished
  | halted
  | terminated
  | invalidFrame (id : Nat)
  | runtime (fault : Fault)
  | evaluation (report : FaultReport)
  deriving DecidableEq, Repr

def SessionError.message : SessionError → String
  | .alreadyRunning => "session is already running"
  | .finished => "program has finished"
  | .halted => "session was halted"
  | .terminated => "session was terminated"
  | .invalidFrame id => s!"no frame with id {id}"
  | .runtime fault => fault.message
  | .evaluation report => "evaluation failed: " ++ report.fault.message

/-- A program under a debugger. -/
structure Session where
  machine : Machine
  table : LineTable
  runState : RunState := .paused
  /-- The step to be ended. -/
  step : Option StepRequest := none
  /-- Whether there is a line breakpoint at an instruction, by offset. -/
  lineBreaks : Array Bool := .replicate machine.image.code.size false
  /-- Whether there is an instruction breakpoint at an instruction, by offset. -/
  instBreaks : Array Bool := .replicate machine.image.code.size false
  /-- The fault that the session is paused on, and its trace. -/
  exception : Option (FaultReport × String) := none
  /-- Whether the program has ended. -/
  done : Bool := false
  /-- Whether the program runs without breakpoints, steps and pauses. -/
  noDebug : Bool := false
  /-- Whether the next burst pauses before its first instruction. -/
  stopOnEntry : Bool := false
  entryRequested : Bool := false
  /-- The program's name in traces. -/
  file : String := "main"
  /-- Whether a worker is live. -/
  running : Bool := false
  /-- Whether a live worker waits for ever.  Nobody else gets at the session then. -/
  stuck : Bool := false
  /-- Whether events are dropped. -/
  suppressed : Bool := false
  /-- Events delivered, in order. -/
  events : List Event := []

namespace Session

/-- A session over an image: `none` if the image names no scope for the whole program, or too many lines. -/
def create? (image : Image) (limits : Limits) (world : World) : Option Session := do
  let table ← LineTable.ofImage? image
  let machine ← Machine.create? image limits world
  return { machine := machine, table := table }

/-- Whether a worker is live and gets on. -/
def working (s : Session) : Bool := s.running && !s.stuck

def emit (s : Session) (e : Event) : Session :=
  if s.suppressed then s else { s with events := s.events ++ [e] }

def place (s : Session) : Place := ⟨s.machine.pc, s.table.lineAt s.machine.pc, s.machine.depth⟩

def breaksAt (s : Session) (pc : Nat) : Bool := s.lineBreaks.getD pc false || s.instBreaks.getD pc false

end Session

end PseudoVm
