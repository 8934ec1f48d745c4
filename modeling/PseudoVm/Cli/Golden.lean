import PseudoVm.Cli.Run
/-!
# Cli.Golden: checking a program against its recorded output

Beside an image lie the output it is expected to make and the input it is given.  Without an expected output the
program runs on the console, and what it read and wrote is recorded.
-/
namespace PseudoVm

namespace Cli

def outputPath (image : String) : String := PathName.withEnding image "out"

def inputPath (image : String) : String := PathName.withEnding image "in"

def record (disk : Disk) (path text : String) : Except Failure Disk :=
  match disk.writeFile path (bytesOf text) with
  | .ok disk => .ok disk
  | .error e => .error { context := "Failed to write " ++ path, causes := [e.message] }

/-- Records what a program read, if it read something, and what it wrote. -/
def recordRun (path : String) (world : World) : Except Failure Disk := do
  let read := world.console.transcript
  let disk ← if read = "" then pure world.disk else record world.disk (inputPath path) read
  record disk (outputPath path) world.console.output

def capture (host : Host) (path : String) (image : Image) (limits : Limits) (seed : Option Nat) : Finish :=
  let (report, world) := execute image limits (worldOf host seed (.ofStream host.input))
  let shown := "Capturing...\n" ++ world.console.output
  match report with
  | .error a => brokenOff a shown world.disk
  | .ok (some p) => ⟨some 1, shown, faultText p (traceName path), world.disk⟩
  | .ok none =>
    match recordRun path world with
    | .ok disk => ⟨some 0, shown ++ "SAVED new test output\n", "", disk⟩
    | .error f => ⟨some 1, shown, f.text, world.disk⟩

/-- Runs a program on its input and compares what it writes with what is expected. -/
def compare (host : Host) (path : String) (image : Image) (limits : Limits) (seed : Option Nat)
    (input want : String) : Finish :=
  let (report, world) := execute image limits (worldOf host seed (.ofScript input))
  let got := world.console.output
  match report with
  | .error a => brokenOff a "" world.disk
  | .ok (some p) => ⟨some 1, "", faultText p (traceName path), world.disk⟩
  | .ok none =>
    if got = want then ⟨some 0, "PASSED\n", "", world.disk⟩
    else ⟨some 1, "", "wrong output: got=\n" ++ got ++ "\nwant=\n" ++ want ++ "\n", world.disk⟩

def test (host : Host) (path : String) (limits : Limits) (seed : Option Nat) : Except Failure Finish := do
  let image ← loadImage host.disk path
  match ← loadOptionalText host.disk (outputPath path) with
  | none => return capture host path image limits seed
  | some want =>
    let input ← loadOptionalText host.disk (inputPath path)
    return compare host path image limits seed (input.getD "") want

end Cli

end PseudoVm
