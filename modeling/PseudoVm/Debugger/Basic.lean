import PseudoVm.Image.Address
import PseudoVm.Image.Listing
import PseudoVm.Session.Control
import PseudoVm.Session.Inspect
/-!
# Debugger.Basic: a debugger at a console

A debugger drives a session by commands and shows what becomes of it.  It writes to the console of the program it
debugs, so what the two write stands in the order it was written.
-/
namespace PseudoVm

/-- A debugger. -/
structure Debugger where
  session : Session
  /-- The program's name in listings. -/
  fileName : String
  /-- The source, which may be missing. -/
  source : List String
  /-- Lines with a breakpoint, ascending; each of them carries code. -/
  breakpoints : List Nat := []
  /-- Whether the program was sent to the background, where its pauses are announced. -/
  background : Bool := false
  /-- Whether the program has been started. -/
  started : Bool := false
  /-- Whether no more commands are taken. -/
  left : Bool := false

namespace Debugger

def styled (style text : String) : String := "\x1b[" ++ style ++ "m" ++ text ++ "\x1b[0m"

def red : String → String := styled "31"

def yellow : String → String := styled "33"

def bold : String → String := styled "1"

def gray : String → String := styled "90"

def write (d : Debugger) (text : String) : Debugger :=
  { d with session := { d.session with machine := { d.session.machine with
      world := { d.session.machine.world with console := d.session.machine.world.console.write text } } } }

def say (d : Debugger) (line : String) : Debugger := d.write (line ++ "\n")

def sayAll (d : Debugger) (lines : List String) : Debugger := lines.foldl say d

/-- The line that announces an event; pauses are announced only in the background. -/
def announcement? (background : Bool) : Event → Option String
  | .paused reason => if background then some ("\n" ++ yellow "Paused" ++ " (" ++ reason.text ++ ")") else none
  | .exception p => if background then some ("\n" ++ red "Exception:" ++ " " ++ p.fault.message) else none
  | .failed p => some (red "error:" ++ " " ++ p.fault.message)
  | .exited code => some s!"Program exited with status {code}."
  | .terminated => some "Program terminated."

def announce (d : Debugger) : Debugger :=
  let lines := d.session.events.filterMap (announcement? d.background)
  { d with session := { d.session with events := [] } }.sayAll lines

/-- Puts a line into an ascending list, once. -/
def insertLine (line : Nat) : List Nat → List Nat
  | [] => [line]
  | l :: rest => if line < l then line :: l :: rest else if line = l then l :: rest else l :: insertLine line rest

/-- A number at the right of a field. -/
def rightAligned (width n : Nat) : String :=
  let digits := Nat.toDigits 10 n
  String.ofList (List.replicate (width - digits.length) ' ' ++ digits)

/-- A line of the source with its number, marked if it is the centre and if it has a breakpoint. -/
def sourceRow (d : Debugger) (center line : Nat) (text : String) : String :=
  (if line = center then "→" else " ") ++ " " ++ (if line ∈ d.breakpoints then red "●" else " ") ++ " "
    ++ gray (rightAligned 4 line) ++ " │ " ++ text

/-- The rows of the source at most `reach` lines away from a line. -/
def sourceRows (d : Debugger) (center reach : Nat) : List String :=
  let first := max (center - reach) 1
  let chosen := (d.source.drop (first - 1)).take (center + reach + 1 - first)
  chosen.mapIdx fun i text => d.sourceRow center (first + i) text

/-- Shows the source around a line, if there is a source. -/
def showSource (d : Debugger) (center reach : Nat) : Debugger :=
  if d.source.isEmpty then d else d.sayAll ([""] ++ d.sourceRows center reach ++ [""])

def location (d : Debugger) (line pc : Nat) : String :=
  d.fileName ++ ":" ++ toString line ++ " (" ++ addressText pc ++ ")"

def showLocation (d : Debugger) : Debugger :=
  let (pc, pos) := d.session.position
  (d.say ("At " ++ d.location pos.line pc)).showSource pos.line 2

/-- Shows the fault that the program is paused on, if there is one. -/
def showException (d : Debugger) : Debugger :=
  match d.session.exception with
  | some (p, trace) => (d.say (red "Exception:" ++ " " ++ p.fault.message)).write trace
  | none => d

/-- The debugger, if its session can be got at; one that is stuck is waited for for ever. -/
def reached (d : Debugger) : Except Abort Debugger := if d.session.stuck then .error .deadlock else .ok d

/-- Shows why and where the program paused, if it did. -/
def showStop (d : Debugger) : Debugger :=
  if !d.session.done && d.session.runState == .paused then d.showException.showLocation else d

/-- A value as it is shown; an array that contains itself is never shown. -/
def valueText (d : Debugger) : Option Value → Except Abort String
  | some v =>
    match d.session.machine.world.heap.inspect? v with
    | some text => .ok text
    | none => .error .deadlock
  | none => .ok "<unassigned>"

def variableRow (d : Debugger) (kind : String) : String × Option Value → Except Abort String
  | (name, v) => (d.valueText v).map fun text => "  " ++ kind ++ Listing.padRight 16 name ++ " " ++ text

def frameRows (d : Debugger) (f : FrameView) : Except Abort (List String) := do
  let args ← f.args.mapM fun (name, v) => d.variableRow "param  " (name, some v)
  let locals ← f.locals.mapM (d.variableRow "local  ")
  let globals ← f.globals.mapM (d.variableRow "global ")
  return ["", bold s!"Frame {f.id} ({f.scope}):"] ++ args ++ locals ++ globals ++ [""]

def stackRow (d : Debugger) (isLatest : Bool) (f : FrameView) : String :=
  "  " ++ (if isLatest then "→" else " ") ++ s!" #{f.id} " ++ yellow f.scope ++ " at " ++ d.location f.pos.line f.pc

/-- The frames of the program, the latest first. -/
def frames (d : Debugger) : Except Abort (List FrameView) := do
  match (← d.reached).session.frames? with
  | some frames => return frames
  | none => throw .badIndex

end Debugger

end PseudoVm
