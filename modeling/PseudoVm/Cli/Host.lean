import PseudoVm.Config.Settings
import PseudoVm.Image.Codec
import PseudoVm.Image.Validation
import PseudoVm.Machine.Basic
/-!
# Cli.Host: where a command runs, and how it ends

A command is a function of its host: the disk, the variables, the input.  It ends with a status, with what it
printed, and with the disk as it left it.  A failure is reported with its context and its causes.
-/
namespace PseudoVm

namespace Cli

/-- Where a command runs. -/
structure Host where
  disk : Disk
  /-- The directory where the search for the project's settings starts. -/
  directory : String
  env : Environment
  /-- The user's directory. -/
  home : Option String
  /-- The directory of global settings. -/
  configDir : Option String
  input : String
  /-- What seeds the random numbers of a run that fixes no seed. -/
  entropy : UInt64

/-- How a command ended. -/
structure Finish where
  /-- None if it never ends; its output is then what it has printed so far. -/
  status : Option Nat
  output : String
  errors : String
  disk : Disk

/-- The end of a command that broke off, with what it had printed. -/
def brokenOff (a : Abort) (output : String) (disk : Disk) : Finish :=
  let status := match a with
    | .deadlock => none
    | .badIndex | .noRoom => some 101
  ⟨status, output, "", disk⟩

/-- Why a command failed: lines printed before, what it was about, and the causes. -/
structure Failure where
  notes : String := ""
  context : String
  causes : List String := []

def indented (margin text : String) : String := text.replace "\n" ("\n" ++ margin)

/-- The causes of a failure, numbered if there are several. -/
def causesText : List String → String
  | [] => ""
  | [cause] => "\n\nCaused by:\n    " ++ indented "    " cause
  | causes => "\n\nCaused by:" ++ String.join (causes.mapIdx fun i cause =>
      "\n    " ++ toString i ++ ": " ++ indented "       " cause)

def Failure.text (f : Failure) : String := f.notes ++ "Error: " ++ f.context ++ causesText f.causes ++ "\n"

def Failure.finish (f : Failure) (host : Host) : Finish := ⟨some 1, "", f.text, host.disk⟩

/-- A failure of the disk, which is told as it is and inside what it led to. -/
def diskCauses (lead : String) (e : DiskError) : List String := [lead ++ e.message, e.message]

def configCauses : ConfigError → List String
  | .unreadable e => diskCauses "Failed to read configuration file: " e
  | e => [e.message]

/-- The file of global settings in the directory of such files. -/
def globalFile (configDir : String) : String := PathName.join configDir "gaddis/config.toml"

def loadSettings (host : Host) (config : Option String) : Except Failure Settings :=
  let global := host.configDir.map globalFile
  match config with
  | some path =>
    match Settings.ofFile host.disk host.env global path with
    | .ok c => .ok c.settings
    | .error e => .error { context := "Failed to load config file: " ++ path, causes := configCauses e }
  | none =>
    match Settings.ofDirectory host.disk host.env global host.directory with
    | .ok c => .ok c.settings
    | .error e => .error { context := "Failed to load configuration", causes := configCauses e }

/-- An image whose problems are printed, one to a line. -/
def checkImage (path : String) (image : Image) : Except Failure Image :=
  match image.validate.getD [] with
  | [] => .ok image
  | problems => .error
      { notes := String.join (problems.map fun p => "  " ++ p.message ++ "\n")
        context := path ++ " is not a valid program image (" ++ toString problems.length ++ " problem(s))" }

def loadImage (disk : Disk) (path : String) : Except Failure Image :=
  let failure (causes : List String) : Failure :=
    { context := "Failed to load program image: " ++ path, causes := causes }
  match disk.readText path with
  | .error e => .error (failure (diskCauses "failed to access image: " e))
  | .ok text =>
    match Image.read text with
    | .error e => .error (failure [e.message])
    | .ok image => checkImage path image

/-- The text of a file that a command was given. -/
def loadText (disk : Disk) (what path : String) : Except Failure String :=
  match disk.readText path with
  | .ok text => .ok text
  | .error e => .error { context := what ++ path, causes := [e.message] }

/-- The text of a file that may be missing. -/
def loadOptionalText (disk : Disk) (path : String) : Except Failure (Option String) :=
  match disk.readText path with
  | .ok text => .ok (some text)
  | .error .notFound => .ok none
  | .error e => .error { context := "Failed to read " ++ path, causes := [e.message] }

def traceName (image : String) : String := (PathName.fileStem? image).getD "main"

def worldOf (host : Host) (seed : Option Nat) (source : Source) : World :=
  { console := { source := source }, random := Random.ofSeed ((seed.map UInt64.ofNat).getD host.entropy),
    disk := host.disk }

end Cli

end PseudoVm
