import PseudoVm.Cli.Host
import PseudoVm.Image.Listing
import PseudoVm.Machine.Evaluate
/-!
# Cli.Run: running and listing a program

A fault is printed with its trace, and the status is 1.  Files that the program left open are written when it
has ended.
-/
namespace PseudoVm

namespace Cli

/-- A run: the fault that ended it, if one did, and the world once it is gone. -/
def execute (image : Image) (limits : Limits) (world : World) : Except Abort (Option FaultReport) × World :=
  match Machine.create? image limits world with
  | none => (.error .badIndex, world)
  | some m =>
    let (report, m) := m.runTraced
    (report, m.leftWorld)

def faultText (p : FaultReport) (file : String) : String := "error: " ++ p.fault.message ++ "\n" ++ p.trace file

def run (host : Host) (path : String) (limits : Limits) (seed : Option Nat) (fileName : Option String) :
    Except Failure Finish := do
  let image ← loadImage host.disk path
  let (report, world) := execute image limits (worldOf host seed (.ofStream host.input))
  match report with
  | .error a => return brokenOff a world.console.output world.disk
  | .ok none => return ⟨some 0, world.console.output, "", world.disk⟩
  | .ok (some p) => return ⟨some 1, world.console.output, faultText p (fileName.getD (traceName path)), world.disk⟩

/-- Lists the program in a file, with its source between the instructions if one is given. -/
def disasm (host : Host) (path : String) (source : Option String) : Except Failure Finish := do
  let image ← loadImage host.disk path
  let text ← source.mapM (loadText host.disk "Failed to read source file: ")
  match image.listing text with
  | none => return brokenOff .badIndex "" host.disk
  | some listing => return ⟨some 0, listing, "", host.disk⟩

end Cli

end PseudoVm
