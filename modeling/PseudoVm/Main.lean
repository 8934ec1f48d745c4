import PseudoVm.Cli.Program
/-!
# Main: the command line in its surroundings

The command line is a function of its host.  The host is read before it: the files below the working directory,
those that the arguments name, settings and history, variables and the input.  What it printed and what it changed
on the disk is written after it.
-/
namespace PseudoVm

namespace Cli

def knownVariables : List String :=
  ["GADDIS_CONFIG", "GADDIS_SEED", "GADDIS_MAX_INSTRUCTIONS", "GADDIS_MAX_STACK_DEPTH", "GADDIS_STOP_ON_ENTRY",
    "GADDIS_NO_DEBUG", "GADDIS_LOG_LEVEL", "GADDIS_HISTORY_FILE", "GADDIS_NO_HISTORY"]

def readEnvironment : IO Environment :=
  knownVariables.filterMapM fun name => do return (← IO.getEnv name).map (name, ·)

/-- All of a stream. -/
partial def readStream (stream : IO.FS.Stream) (read : String) : IO String := do
  let line ← stream.getLine
  if line.isEmpty then return read else readStream stream (read ++ line)

/-- Puts directory entries and all below them on a disk; what is neither a file nor a directory is left out. -/
partial def readTree (disk : Disk) (path : Path) (entries : Array IO.FS.DirEntry) : IO Disk :=
  entries.foldlM (fun disk entry => do
    let here := path ++ [entry.fileName]
    let kind := match ← entry.path.metadata.toBaseIO with
      | .ok data => data.type
      | .error _ => .other
    match kind with
    | .dir => readTree (disk.put here .dir) here (← entry.path.readDir)
    | .file =>
      match ← (IO.FS.readBinFile entry.path).toBaseIO with
      | .ok bytes => return disk.put here (.file bytes.toList)
      | .error _ => return disk
    | _ => return disk) disk

/-- Puts a file on a disk, if there is one. -/
def readFileInto (disk : Disk) (name : String) : IO Disk := do
  match ← (IO.FS.readBinFile name).toBaseIO with
  | .ok bytes => return disk.withFile name bytes.toList
  | .error _ => return disk

/-- The files that a command line may use and that need not lie below the working directory. -/
def namedFiles (args : List String) (env : Environment) (directory : String) (home configDir : Option String) :
    List String :=
  args ++ args.map inputPath ++ args.map outputPath ++ env.map (·.2)
    ++ (PathName.ancestors directory).map (PathName.join · Settings.projectFile)
    ++ (home.map defaultHistory).toList ++ (configDir.map globalFile).toList

def bareHost (env : Environment) : Host :=
  { disk := {}, directory := "", env, home := none, configDir := none, input := "", entropy := 0 }

def readHost (env : Environment) (args : List String) : IO Host := do
  let here ← IO.currentDir
  let home ← IO.getEnv "HOME"
  let configDir := (← IO.getEnv "XDG_CONFIG_HOME").or (home.map (PathName.join · ".config"))
  let disk ← readTree {} [] (← here.readDir)
  let disk ← (namedFiles args env here.toString home configDir).foldlM readFileInto disk
  let entropy := (← IO.getRandomBytes 8).toList.foldl (fun n b => n * 256 + b.toUInt64) 0
  return { disk, directory := here.toString, env, home, configDir,
           input := ← readStream (← IO.getStdin) "", entropy }

def pathText : Path → String
  | "/" :: names => "/" ++ String.intercalate "/" names
  | names => String.intercalate "/" names

def writeChanges (before after : Disk) : IO Unit :=
  for (path, node) in after.entries do
    if before.node? path != some node then
      match node with
      | .dir => IO.FS.createDirAll (pathText path)
      | .file bytes => IO.FS.writeBinFile (pathText path) ⟨bytes.toArray⟩

/-- Waits for what never comes. -/
partial def waitForever (_ : Unit) : IO UInt32 := do
  IO.sleep 1000
  waitForever ()

end Cli

end PseudoVm

/-- Runs the program; arguments that ask for no command need no more than the variables. -/
def main (args : List String) : IO UInt32 := do
  let env ← PseudoVm.Cli.readEnvironment
  let host ← match PseudoVm.Cli.parse env args with
    | .ok _ => PseudoVm.Cli.readHost env args
    | .error _ => pure (PseudoVm.Cli.bareHost env)
  let finish := PseudoVm.Cli.start host args
  (← IO.getStdout).putStr finish.output
  (← IO.getStderr).putStr finish.errors
  match finish.status with
  | none => PseudoVm.Cli.waitForever ()
  | some status =>
    PseudoVm.Cli.writeChanges host.disk finish.disk
    return status.toUInt32
