import PseudoVm.Text.Lines
import PseudoVm.World.Disk
import PseudoVm.World.PathName
/-!
# Debugger.History: the commands given to the debugger

A history keeps the latest hundred commands.  A command equal to the one before it is not kept again.  In a file
the commands stand one to a line under a mark of the format, with backslashes doubled and line feeds escaped.

A file is read up to the first line that is no text.  If there is one, the commands before it count as new.
-/
namespace PseudoVm

namespace Debugger

/-- Commands, the oldest first, and whether some are not in the file. -/
structure History where
  entries : List String := []
  changed : Bool := false
  deriving DecidableEq, Repr

namespace History

def capacity : Nat := 100

/-- The first line of a file. -/
def mark : String := "#V2"

def add (h : History) (line : String) : History :=
  if line = "" ∨ h.entries.getLast? = some line then h
  else ⟨(if h.entries.length = capacity then h.entries.drop 1 else h.entries) ++ [line], true⟩

def escape (line : String) : String := (line.replace "\\" "\\\\").replace "\n" "\\n"

/-- The command on a line, unless something else is escaped on it. -/
def unescape? : List Char → Option (List Char)
  | [] => some []
  | '\\' :: 'n' :: rest => (unescape? rest).map ('\n' :: ·)
  | '\\' :: '\\' :: rest => (unescape? rest).map ('\\' :: ·)
  | c :: rest => if c = '\\' then none else (unescape? rest).map (c :: ·)

/-- The command on a line; one that cannot be read stands for itself. -/
def unescape (line : String) : String := ((unescape? line.toList).map String.ofList).getD line

/-- The commands in a file's text; a file without the mark has nothing escaped. -/
def ofText (text : String) : History :=
  match lines text with
  | [] => {}
  | first :: rest =>
    let commands := if first = mark then rest.map unescape else first :: rest
    { commands.foldl add {} with changed := false }

def toText (h : History) : String := mark ++ "\n" ++ String.join (h.entries.map fun e => escape e ++ "\n")

/-- The lines of a file that have been read up to `line`, kept backwards; each has its line feed. -/
def chunksFrom (line : Bytes) : Bytes → List Bytes
  | [] => if line.isEmpty then [] else [line.reverse]
  | b :: rest => if b = 0x0A then (b :: line).reverse :: chunksFrom [] rest else chunksFrom (b :: line) rest

/-- Lines as text up to the first that is none, and whether there is one. -/
def readable : List Bytes → String × Bool
  | [] => ("", false)
  | line :: rest =>
    match Utf8.text? line with
    | none => ("", true)
    | some text =>
      let (more, broken) := readable rest
      (text ++ more, broken)

def ofBytes (bytes : Bytes) : History :=
  let (text, broken) := readable (chunksFrom [] bytes)
  let h := ofText text
  { h with changed := broken && !h.entries.isEmpty }

/-- The history in a file; a file that cannot be read holds none. -/
def load (disk : Disk) (path : String) : History :=
  match disk.readFile path with
  | .ok bytes => ofBytes bytes
  | .error _ => {}

/-- Writes a history that has changed, and makes the directories of the file; if that fails, nothing is said. -/
def save (h : History) (disk : Disk) (path : String) : Disk :=
  let disk := match PathName.parent? path with
    | some dir => disk.makeDirs dir
    | none => disk
  if h.changed then ((disk.writeFile path (bytesOf h.toText)).toOption).getD disk else disk

end History

end Debugger

end PseudoVm
