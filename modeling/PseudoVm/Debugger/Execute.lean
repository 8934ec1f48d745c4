import PseudoVm.Debugger.Basic
import PseudoVm.Debugger.Command
/-!
# Debugger.Execute: carrying out commands

Commands that let the program run wait until it stops again, unless it is sent to the background.  A change of
the breakpoints is handed to the session as a whole.  A command breaks off where it waits for what never comes: the end
of a burst that has none, a stuck session, the text of an array that contains itself.
-/
namespace PseudoVm

namespace Debugger

/-- Waits for the program to stop, and announces its events. -/
def settle (d : Debugger) : Except Abort Debugger := { d with session := d.session.wait }.reached.map announce

def resume (d : Debugger) (background : Bool) : Except Abort Debugger :=
  let d := { d with background := background }
  match d.session.start with
  | .error e => .ok (d.say (red "Error:" ++ " " ++ e.message))
  | .ok s =>
    let d := { d with session := s, started := true }
    if background then .ok d else d.settle.map showStop

def run (d : Debugger) : Except Abort Debugger := do
  if d.started then
    let d ← d.reached
    ({ d with session := d.session.reset }.announce.say "Restarting program...").resume false
  else (d.say "Starting program...").resume false

def step (d : Debugger) (kind : StepKind) (granularity : Granularity) : Except Abort Debugger :=
  if d.session.running then .ok (d.say "Program is running; pause it first.")
  else { d with session := d.session.armStep kind granularity }.resume false

def pause (d : Debugger) : Except Abort Debugger := do
  if d.session.running then
    let d ← d.reached
    let d ← { d with session := d.session.pause }.settle
    return { d with background := false }.showStop
  else return d.say "Program is not running."

def setBreakpoint (d : Debugger) (line : Nat) : Debugger :=
  let (statuses, session) := d.session.setLineBreakpoints (d.breakpoints ++ [line])
  let d := { d with session := session }
  match statuses.find? (·.requested == line) with
  | some ⟨_, true, _, pc⟩ =>
    let address := (pc.map addressText).getD ""
    { d with breakpoints := insertLine line d.breakpoints }.say s!"Breakpoint set at line {line} ({address})"
  | _ => d.say (yellow s!"No code on line {line}; breakpoint not set.")

def keepBreakpoints (d : Debugger) (lines : List Nat) : Debugger :=
  { d with breakpoints := lines, session := (d.session.setLineBreakpoints lines).2 }

def delete (d : Debugger) : Selection → Debugger
  | .all => (d.keepBreakpoints []).say "All breakpoints cleared."
  | .line line =>
    if line ∈ d.breakpoints then
      (d.keepBreakpoints (d.breakpoints.filter (· != line))).say s!"Breakpoint on line {line} deleted."
    else (d.keepBreakpoints d.breakpoints).say s!"No breakpoint on line {line}."
  | .invalid word => (d.keepBreakpoints d.breakpoints).say ("Invalid line number: '" ++ word ++ "'")

def listBreakpoints (d : Debugger) : Debugger :=
  match d.breakpoints with
  | [] => d.say "No breakpoints set."
  | lines => d.sayAll (lines.map fun line => "  " ++ d.fileName ++ ":" ++ toString line)

def showVariables (d : Debugger) (id : Option Nat) : Except Abort Debugger := do
  let frames ← d.frames
  let frame := match id with
    | some id => frames.find? (·.id == id)
    | none => frames.head?
  match frame with
  | some f => return d.sayAll (← d.frameRows f)
  | none => return d.say "No such frame."

def showStack (d : Debugger) : Except Abort Debugger := do
  match ← d.frames with
  | [] => return d.say "No stack frames."
  | frames => return d.sayAll (frames.mapIdx fun i f => d.stackRow (i == 0) f)

def restart (d : Debugger) (id : Nat) : Debugger :=
  match d.session.restartFrame id with
  | .ok s => { d with session := s }.showLocation
  | .error e => d.say (red "Error:" ++ " " ++ e.message)

/-- **Carries out a command.** -/
def execute (d : Debugger) : Command → Except Abort Debugger
  | .help => .ok (d.sayAll Command.summary)
  | .quit => .ok { d with left := true }
  | .run => d.run
  | .resume background => d.resume background
  | .step kind granularity => d.step kind granularity
  | .pause => d.pause
  | .setBreakpoint (some line) => d.reached.map (·.setBreakpoint line)
  | .setBreakpoint none => .ok (d.say "Usage: break <line>")
  | .delete (some which) => d.reached.map (·.delete which)
  | .delete none => .ok (d.say "Usage: delete <line> or delete all")
  | .breakpoints => .ok d.listBreakpoints
  | .list (some line) => .ok (d.showSource line 5)
  | .list none => d.reached.map fun d => d.showSource (max d.session.position.2.line 1) 5
  | .showVariables id => d.showVariables id
  | .backtrace => d.showStack
  | .restart (some id) => d.reached.map (·.restart id)
  | .restart none => .ok (d.say "Usage: restart <frame>")
  | .unknown name => .ok (d.say ("Unknown command: '" ++ name ++ "'. Type 'help' for available commands."))

/-- Carries out the command on a line; a blank line has none. -/
def executeLine (d : Debugger) (line : String) : Except Abort Debugger :=
  match Command.ofLine? line with
  | some command => d.execute command
  | none => .ok d

/-- The next line of the console, which the program does not get. -/
def readLine? (d : Debugger) : Option (String × Debugger) :=
  (d.session.machine.world.console.source.next?).map fun (line, source) =>
    (line, { d with session := { d.session with machine := { d.session.machine with
      world := { d.session.machine.world with
        console := { d.session.machine.world.console with source := source } } } } })

end Debugger

end PseudoVm
