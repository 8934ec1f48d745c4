import PseudoVm.Text.Lines
import PseudoVm.Value.Fault
/-!
# World.Console: lines in, text out

Input is either a script, cut into lines beforehand, or a stream that is read a line at a time.  The console
keeps what it handed out and what was written, so a run can be recorded.
-/
namespace PseudoVm

/-- Where input lines come from. -/
inductive Source
  | script (lines : List String)
  | stream (rest : List Char)
  deriving DecidableEq, Repr

namespace Source

def ofScript (text : String) : Source := .script (lines text)

def ofStream (text : String) : Source := .stream text.toList

/-- The next line without its ending, and what is left. -/
def next? : Source → Option (String × Source)
  | .script [] => none
  | .script (line :: rest) => some (line, .script rest)
  | .stream cs => (Lines.take? cs).map fun (line, rest) => (String.ofList (Lines.trimEnd line), .stream rest)

def size : Source → Nat
  | .script lines => lines.length
  | .stream cs => cs.length

end Source

/-- A console: input to come, the lines handed out so far (latest first) and the text written. -/
structure Console where
  source : Source
  received : List String := []
  output : String := ""
  deriving DecidableEq, Repr

namespace Console

def write (c : Console) (text : String) : Console := { c with output := c.output ++ text }

def readLine (c : Console) : Except Fault String × Console :=
  match c.source.next? with
  | none => (.error (.io "unexpected end of input"), c)
  | some (line, source) => (.ok line, { c with source := source, received := line :: c.received })

/-- The text written so far, which the console then forgets. -/
def takeOutput (c : Console) : String × Console := (c.output, { c with output := "" })

def transcript (c : Console) : String := String.join (c.received.reverse.map (· ++ "\n"))

end Console

end PseudoVm
