import PseudoVm.Session.Basic
/-!
# Session.Burst: what a worker does

A burst first looks at the run state and at a pause asked for at entry.  Then, before every instruction, the run
state and the pending step are looked at, and after it the end of the program and breakpoints: a breakpoint where
the burst starts does not stop it.

A worker that comes to wait for itself never gets to its last section, and keeps the session to itself.
-/
namespace PseudoVm

namespace Session

/-- How a burst ends that finds the session not running. -/
def stoppedOutcome : RunState → Outcome
  | .terminated => .terminated
  | .halted => .halted
  | .running | .paused => .paused .pause

def ended : Outcome × Session → Option Outcome × Session
  | (o, s) => (some o, s)

def pausedFor (s : Session) (reason : PauseReason) : Outcome × Session :=
  (.paused reason, { s with runState := .paused })

def finished (s : Session) : Outcome × Session := (.finished, { s with done := true, runState := .terminated })

/-- An instruction failed: the program is paused on the fault, or ends if it is not debugged. -/
def failed (s : Session) (p : FaultReport) : Outcome × Session :=
  if s.noDebug then (.failed p, { s with done := true, runState := .terminated })
  else (.exception p, { s with runState := .paused, step := none, exception := some (p, p.trace s.file) })

def crashed (s : Session) : Outcome × Session := (.crashed, { s with runState := .terminated })

/-- An instruction, or the report of its fault, broke off: a worker that comes to wait for itself goes on waiting. -/
def brokenOff (s : Session) : Abort → Outcome × Session
  | .deadlock => (.hung, { s with stuck := true })
  | .badIndex | .noRoom => s.crashed

/-- The start of a burst: the outcome if it ends right there. -/
def enter (s : Session) : Option Outcome × Session :=
  if s.runState ≠ .running then (some (stoppedOutcome s.runState), s)
  else if s.stopOnEntry then
    let s := { s with stopOnEntry := false }
    if s.noDebug then (none, s) else ended (s.pausedFor .entry)
  else (none, s)

def stepEnds (s : Session) : Bool := !s.noDebug && s.step.any (·.shouldPause s.place)

/-- After an instruction: the end of the program, or a breakpoint. -/
def afterStep (s : Session) : Option Outcome × Session :=
  if s.machine.isDone then ended s.finished
  else if !s.noDebug && s.breaksAt s.machine.pc then
    ended ({ s with step := none }.pausedFor .breakpoint)
  else (none, s)

/-- **One turn of the worker**: at most one instruction, and the outcome if the burst ends with it. -/
def tick (s : Session) : Option Outcome × Session :=
  if s.runState ≠ .running then (some (stoppedOutcome s.runState), s)
  else if s.machine.isDone then ended s.finished
  else if s.stepEnds then
    ended ({ s with step := none }.pausedFor .step)
  else
    let (stop, machine) := s.machine.step
    let s := { s with machine := machine }
    match stop with
    | none => s.afterStep
    | some stop =>
      match machine.explain stop with
      | .ok p => ended (s.failed p)
      | .error a => ended (s.brokenOff a)

/-- At most `fuel` turns of the worker. -/
def turns : Nat → Session → Outcome × Session
  | 0, s => s.crashed
  | fuel + 1, s =>
    match s.tick with
    | (some o, s) => (o, s)
    | (none, s) => turns fuel s

/-- A burst.  Every turn that does not end it executes an instruction, and the limit on those ends it. -/
def burst (s : Session) : Outcome × Session :=
  match s.enter with
  | (some o, s) => (o, s)
  | (none, s) => turns (s.machine.budget + 1) s

/-- The worker's last section, if it gets there: a step survives only a pause. -/
def conclude (s : Session) (o : Outcome) : Session :=
  match o with
  | .hung => s
  | .paused _ | .exception _ => { s with running := false }
  | _ => { s with step := none, running := false }

def eventsOf : Outcome → List Event
  | .paused reason => [.paused reason]
  | .exception p => [.exception p]
  | .failed p => [.failed p, .exited 1]
  | .finished => [.exited 0, .terminated]
  | .terminated => [.terminated]
  | .halted | .crashed | .hung => []

def report (s : Session) (o : Outcome) : Session := (eventsOf o).foldl emit s

/-- **All that a worker does**: a burst, its last section, and the report. -/
def work (s : Session) : Session :=
  let (o, s) := s.burst
  (s.conclude o).report o

end Session

end PseudoVm
