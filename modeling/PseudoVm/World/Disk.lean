import PseudoVm.Text.Utf8
import PseudoVm.World.PathName
/-!
# World.Disk: files and directories

A disk maps canonical paths to files and directories.  The working directory is the empty path; a path text is
followed name by name, and what a name is looked up in has to be a directory.
-/
namespace PseudoVm

/-- A canonical path: the names from the working directory down.  An absolute path starts with `/`, and a path that
leaves the working directory with as many `..` as it goes up. -/
abbrev Path := List String

/-- What a path leads to. -/
inductive Node
  | file (content : Bytes)
  | dir
  deriving DecidableEq, Repr

/-- Files and directories by path. -/
structure Disk where
  entries : List (Path × Node) := []
  deriving DecidableEq, Repr, Inhabited

/-- Why a path cannot be used. -/
inductive DiskError
  | notFound
  | notADirectory
  | isADirectory
  | nameTooLong
  | nulInName
  | invalidText
  deriving DecidableEq, Repr

def DiskError.message : DiskError → String
  | .notFound => "No such file or directory (os error 2)"
  | .notADirectory => "Not a directory (os error 20)"
  | .isADirectory => "Is a directory (os error 21)"
  | .nameTooLong => "File name too long (os error 36)"
  | .nulInName => "file name contained an unexpected NUL byte"
  | .invalidText => "stream did not contain valid UTF-8"

namespace Disk

/-- The places where paths begin: the working directory, the directories above it and the root. -/
def isBase (path : Path) : Bool := path == ["/"] || path.all (· == "..")

/-- What a canonical path leads to; the places where paths begin are directories. -/
def node? (disk : Disk) (path : Path) : Option Node :=
  if isBase path then some .dir else disk.entries.lookup path

def put (disk : Disk) (path : Path) (node : Node) : Disk :=
  if (disk.entries.lookup path).isSome then
    { disk with entries := disk.entries.map fun e => if e.1 = path then (path, node) else e }
  else { disk with entries := disk.entries ++ [(path, node)] }

/-- The directory above a path; the root is above itself. -/
def above (path : Path) : Path :=
  if path = ["/"] then path else if isBase path then path ++ [".."] else path.dropLast

/-- The path that a name leads to from a directory. -/
def enter (path : Path) (name : String) : Path :=
  if name = "." then path else if name = ".." then above path else path ++ [name]

/-- The names in a path text, without empty ones; the first is `/` if the path is absolute. -/
def components (text : String) : List String :=
  let names := (PathName.split text).filter (· ≠ "")
  if text.startsWith "/" then "/" :: names else names

/-- The canonical path that a path text spells out, whatever lies on the way. -/
def canonical (text : String) : Path := (components text).foldl enter []

/-- A path followed from a directory, name by name.  Each name is looked up in a directory, `.` and `..` too; what the
last one leads to need not exist. -/
def walk (disk : Disk) : Path → List String → Except DiskError Path
  | path, [] => .ok path
  | path, name :: rest =>
    match disk.node? path with
    | none => .error .notFound
    | some (.file _) => .error .notADirectory
    | some .dir => if 255 < name.utf8ByteSize then .error .nameTooLong else disk.walk (enter path name) rest

/-- The names in a path text that can be followed at all. -/
def names (text : String) : Except DiskError (List String) :=
  if text.contains '\x00' then .error .nulInName
  else if text.isEmpty then .error .notFound
  else if 4095 < text.utf8ByteSize then .error .nameTooLong
  else .ok (components text)

/-- The path of something that exists, opened for reading.  With a slash at its end a path leads to a directory. -/
def openInput (disk : Disk) (text : String) : Except DiskError Path := do
  let path ← disk.walk [] (← names text)
  match disk.node? path with
  | none => .error .notFound
  | some .dir => .ok path
  | some (.file _) => if text.endsWith "/" then .error .notADirectory else .ok path

/-- The path of a file opened for writing, made if it does not exist.  A path with a slash at its end is refused once
the directory of its last name is reached, whatever that name leads to. -/
def openOutput (disk : Disk) (text : String) : Except DiskError (Path × Disk) := do
  let names ← names text
  if text.endsWith "/" then
    let _ ← disk.walk [] (names.dropLast ++ ["."])
    .error .isADirectory
  else
    let path ← disk.walk [] names
    match disk.node? path with
    | some .dir => .error .isADirectory
    | some (.file _) => .ok (path, disk)
    | none => .ok (path, disk.put path (.file []))

def content (disk : Disk) (path : Path) : Bytes :=
  match disk.node? path with
  | some (.file bytes) => bytes
  | _ => []

/-- Writes bytes into a file from an offset on, over what is there. -/
def writeAt (disk : Disk) (path : Path) (offset : Nat) (bytes : Bytes) : Disk :=
  let old := disk.content path
  let before := old.take offset
  let gap := List.replicate (offset - before.length) 0
  disk.put path (.file (before ++ gap ++ bytes ++ old.drop (offset + bytes.length)))

def append (disk : Disk) (path : Path) (bytes : Bytes) : Disk :=
  disk.put path (.file (disk.content path ++ bytes))

def pathExists (disk : Disk) (text : String) : Bool := (disk.openInput text).isOk

/-- The whole content of a file. -/
def readFile (disk : Disk) (text : String) : Except DiskError Bytes := do
  let path ← disk.openInput text
  match disk.node? path with
  | some (.file bytes) => .ok bytes
  | _ => .error .isADirectory

/-- The whole content of a file as text. -/
def readText (disk : Disk) (text : String) : Except DiskError String := do
  let bytes ← disk.readFile text
  match Utf8.text? bytes with
  | some s => .ok s
  | none => .error .invalidText

/-- Replaces the content of a file, made if it does not exist. -/
def writeFile (disk : Disk) (text : String) (bytes : Bytes) : Except DiskError Disk := do
  let (path, disk) ← disk.openOutput text
  return disk.put path (.file bytes)

/-- Makes the directories that names lead through from a directory, as far as nothing stands in the way. -/
def makeDirsFrom (disk : Disk) (path : Path) : List String → Disk
  | [] => disk
  | name :: rest =>
    if 255 < name.utf8ByteSize then disk
    else
      let next := enter path name
      match disk.node? next with
      | some .dir => disk.makeDirsFrom next rest
      | some (.file _) => disk
      | none => (disk.put next .dir).makeDirsFrom next rest

/-- Makes a directory and those that the path to it leads through. -/
def makeDirs (disk : Disk) (text : String) : Disk :=
  if 4095 < text.utf8ByteSize then disk else disk.makeDirsFrom [] (components text)

/-- A disk on which a file lies, in directories that are made for it. -/
def withFile (disk : Disk) (text : String) (bytes : Bytes) : Disk :=
  (disk.makeDirsFrom [] (components text).dropLast).put (canonical text) (.file bytes)

end Disk

end PseudoVm
