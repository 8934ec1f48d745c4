import PseudoVm.Cli.Arguments
import PseudoVm.Cli.Debug
import PseudoVm.Cli.Golden
/-!
# Cli.Program: the command line as a function

The arguments say what is to be done; settings come from the settings files and the environment, and options of
the command win over them.
-/
namespace PseudoVm

namespace Cli

def releaseNumber : String := "0.1.0"

def usage : String := "Usage: " ++ programName ++ " [--config <CONFIG>] <run|disasm|test|debug> <IMAGE> [OPTIONS]\n"

/-- The end of a program whose arguments ask for no command. -/
def Ending.finish (host : Host) : Ending → Finish
  | .rejected => ⟨some 2, "", "", host.disk⟩
  | .help => ⟨some 0, usage, "", host.disk⟩
  | .version program => ⟨some 0, program ++ " " ++ releaseNumber ++ "\n", "", host.disk⟩

/-- The file that remembers a debugger's commands in a user's directory. -/
def defaultHistory (home : String) : String := PathName.join home ".gaddis/debug_history"

/-- The file that remembers a debugger's commands, if they are to be remembered. -/
def historyFile? (host : Host) (noHistory : Bool) : Option String :=
  if noHistory || (host.env.lookup "GADDIS_NO_HISTORY").isSome then none
  else
    (host.env.lookup "GADDIS_HISTORY_FILE").or (host.home.map defaultHistory)

def carryOut (host : Host) (settings : Settings) : Command → Except Failure Finish
  | .run image seed maxInstructions fileName =>
    let limits := { settings.limits with
      maxInstructions := maxInstructions.getD settings.limits.maxInstructions }
    run host image limits (seed.or settings.seed) fileName
  | .disasm image source => disasm host image source
  | .test image seed => test host image settings.limits (seed.or settings.seed)
  | .debug image source breakpoints stopOnEntry seed noHistory =>
    debug host image
      { source, breakpoints, stopOnEntry := stopOnEntry || settings.stopOnEntry, limits := settings.limits,
        seed := seed.or settings.seed, history := historyFile? host noHistory }

/-- **The whole program**: what becomes of its arguments where it runs. -/
def start (host : Host) (args : List String) : Finish :=
  match parse host.env args with
  | .error ending => ending.finish host
  | .ok invocation =>
    match loadSettings host invocation.config >>= fun settings => carryOut host settings invocation.command with
    | .ok finish => finish
    | .error failure => failure.finish host

end Cli

end PseudoVm
