import PseudoVm.Session.Burst
/-!
# Session.Control: requests to a session

A program is played, paused, stepped, halted, terminated and reset.  `play` is accepted only if no worker is
live and the session is not at its end; it starts a worker, and `wait` lets that worker get to its end.
-/
namespace PseudoVm

/-- What became of a breakpoint request. -/
structure BreakpointStatus where
  /-- The line or offset asked for. -/
  requested : Nat
  verified : Bool
  /-- The source line it is bound to, 0 if it is not. -/
  line : Nat
  /-- The instruction it is bound to. -/
  pc : Option Nat
  deriving DecidableEq, Repr

namespace Session

def refusal? (s : Session) : Option SessionError :=
  if s.done then some .finished
  else
    match s.runState with
    | .halted => some .halted
    | .terminated => some .terminated
    | .running | .paused => none

/-- Takes the place of the worker, of which there is one: the first section of a start. -/
def reserve? (s : Session) : Option Session := if s.running then none else some { s with running := true }

/-- Lets the program run unless that is refused: the second section of a start. -/
def grant (s : Session) : Option SessionError × Session :=
  match s.refusal? with
  | some e => (some e, s)
  | none => (none, { s with runState := .running, exception := none })

/-- Starts a worker; a start that is refused leaves the session as it was. -/
def start (s : Session) : Except SessionError Session :=
  match s.reserve? with
  | none => .error .alreadyRunning
  | some reserved =>
    match reserved.grant with
    | (some e, _) => .error e
    | (none, s) => .ok s

def wait (s : Session) : Session := if s.working then s.work else s

/-- **Plays and waits for the end of the burst.** -/
def play (s : Session) : Except SessionError Session := s.start.map wait

/-- Whether the latest event reports a pause. -/
def reportsPause (s : Session) : Bool :=
  match s.events.getLast? with
  | some (.paused _) => true
  | _ => false

/-- Plays on at every pause that is reported, at most `times`. -/
def playOn : Nat → Session → Session
  | 0, s => s
  | times + 1, s =>
    if s.reportsPause && !s.suppressed then
      match s.play with
      | .ok s => playOn times s
      | .error _ => s
    else s

def pause (s : Session) : Session :=
  if s.noDebug || s.runState != .running then s else { s with runState := .paused }

/-- Stops for good without a word: the section that asks for it. -/
def requestHalt (s : Session) : Session :=
  { s with runState := if s.runState = .terminated then .terminated else .halted, step := none }

/-- Stops for good without a word. -/
def halt (s : Session) : Session := s.requestHalt.wait

/-- Stops for good: the section that asks for it.  If it has an effect it tells whether a worker is live. -/
def requestTerminate (s : Session) : Option Bool × Session :=
  if s.noDebug || s.runState.isFinal then (none, s)
  else (some s.running, { s with runState := .terminated, step := none })

/-- Stops for good and reports it; a live worker does so itself. -/
def terminate (s : Session) : Session :=
  match s.requestTerminate with
  | (some false, s) => s.emit .terminated
  | (_, s) => s

/-- Arms a step from where the program stands; it takes effect on the next play. -/
def armStep (s : Session) (kind : StepKind) (granularity : Granularity) : Session :=
  if s.noDebug || s.done then s else { s with step := some ⟨kind, granularity, s.place⟩ }

/-- Puts the program back to its start: the section that does it. -/
def rewound (s : Session) : Session :=
  { s with machine := s.machine.rewind, runState := .paused, step := none, exception := none, done := false,
           stopOnEntry := s.entryRequested }

def reset (s : Session) : Session := s.halt.rewound

/-- Asks for a pause before the first instruction. -/
def requestEntry (s : Session) : Session := { s with stopOnEntry := true, entryRequested := true }

/-- Returns to a frame and starts it again with its arguments. -/
def restartFrame (s : Session) (id : Nat) : Except SessionError Session :=
  if s.noDebug then .ok s
  else if s.done then .error .finished
  else
    match s.machine.restartFrame? id with
    | none => .error (.invalidFrame id)
    | some m => .ok { s with machine := m, step := none, exception := none }

def lineStatus (t : LineTable) (line : Nat) : BreakpointStatus :=
  match t.firstOf? line with
  | some pc => ⟨line, true, line, some pc⟩
  | none => ⟨line, false, 0, none⟩

def instStatus (t : LineTable) (pc : Nat) : BreakpointStatus :=
  if pc < t.size then ⟨pc, true, t.lineAt pc, some pc⟩ else ⟨pc, false, 0, none⟩

/-- Clears all bits, then sets those at some offsets. -/
def replaceBits (bits : Array Bool) (pcs : List Nat) : Array Bool :=
  pcs.foldl (fun bits pc => bits.setIfInBounds pc true) (.replicate bits.size false)

def setLineBreakpoints (s : Session) (lines : List Nat) : List BreakpointStatus × Session :=
  let statuses := lines.map (lineStatus s.table)
  (statuses, { s with lineBreaks := replaceBits s.lineBreaks (statuses.filterMap (·.pc)) })

def setInstBreakpoints (s : Session) (pcs : List Nat) : List BreakpointStatus × Session :=
  let statuses := pcs.map (instStatus s.table)
  (statuses, { s with instBreaks := replaceBits s.instBreaks (statuses.filterMap (·.pc)) })

end Session

end PseudoVm
