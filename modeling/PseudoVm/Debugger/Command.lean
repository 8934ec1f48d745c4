import PseudoVm.Number.Numeral
import PseudoVm.Session.Stepping
import PseudoVm.Text.Blank
import PseudoVm.Text.LowerCase
/-!
# Debugger.Command: what a line asks for

The first word of a line names the command, in any case.  Further words are its arguments; those that a command
does not need are ignored.
-/
namespace PseudoVm

namespace Debugger

/-- Which breakpoints are to be deleted. -/
inductive Selection
  | all
  | line (line : Nat)
  /-- A word that is no line number. -/
  | invalid (word : String)
  deriving DecidableEq, Repr

/-- What a line asks for.  An argument that is needed and is missing, or is no number, is `none`. -/
inductive Command
  | help
  | quit
  | run
  | resume (background : Bool)
  | step (kind : StepKind) (granularity : Granularity)
  | pause
  | setBreakpoint (line : Option Nat)
  | delete (which : Option Selection)
  | breakpoints
  /-- Lists the source around a line, or around where the program stands. -/
  | list (line : Option Nat)
  /-- Shows the variables of a frame, or of the latest. -/
  | showVariables (frame : Option Nat)
  | backtrace
  | restart (frame : Option Nat)
  | unknown (name : String)
  deriving DecidableEq, Repr

namespace Command

/-- The number that the first argument denotes. -/
def number? (args : List String) : Option Nat := args.head?.bind wordOf?

/-- The breakpoints that the first argument selects. -/
def selection? (args : List String) : Option Selection :=
  args.head?.map fun arg =>
    if arg = "all" then .all
    else
      match wordOf? arg with
      | some line => .line line
      | none => .invalid arg

def ofWords (name : String) (args : List String) : Command :=
  match name with
  | "help" | "h" | "?" => .help
  | "quit" | "q" | "exit" => .quit
  | "run" | "r" => .run
  | "continue" | "c" => .resume (args.head? == some "&")
  | "step" | "s" => .step .into .line
  | "stepi" | "si" => .step .into .instruction
  | "next" | "n" => .step .over .line
  | "out" | "finish" => .step .out .line
  | "pause" => .pause
  | "break" | "b" => .setBreakpoint (number? args)
  | "delete" | "d" | "clear" => .delete (selection? args)
  | "breakpoints" | "bp" => .breakpoints
  | "list" | "l" => .list (args.head?.map fun arg => (wordOf? arg).getD 1)
  | "vars" | "v" | "locals" => .showVariables (number? args)
  | "backtrace" | "bt" | "where" => .backtrace
  | "restart" => .restart (number? args)
  | _ => .unknown name

/-- **The command on a line**, if the line is not blank. -/
def ofLine? (line : String) : Option Command :=
  match words line with
  | [] => none
  | name :: args => some (ofWords (lowerCase name) args)

def summary : List String := [
  "",
  "\x1b[1mDebugger Commands:\x1b[0m",
  "",
  "  \x1b[1;33mExecution:\x1b[0m",
  "    run, r              Start or restart the program",
  "    continue, c         Continue until a breakpoint or exit",
  "    continue &          Continue in the background",
  "    pause               Pause a background run",
  "    step, s             Step to the next line, entering calls",
  "    stepi, si           Step one instruction",
  "    next, n             Step over calls",
  "    out, finish         Run until the current module returns",
  "    restart <frame>     Re-enter frame <frame> from its start",
  "",
  "  \x1b[1;33mBreakpoints:\x1b[0m",
  "    break <line>, b     Set a breakpoint on a line",
  "    delete <line>, d    Delete the breakpoint on a line",
  "    delete all          Delete all breakpoints",
  "    breakpoints, bp     List breakpoints",
  "",
  "  \x1b[1;33mInspection:\x1b[0m",
  "    vars [frame], v     Show variables of a frame",
  "    backtrace, bt       Show the call stack",
  "    list [line], l      List source around a line",
  "",
  "    help, h, ?          Show this help",
  "    quit, q, exit       Exit the debugger",
  ""]

end Command

end Debugger

end PseudoVm
