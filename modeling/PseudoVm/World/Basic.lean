import PseudoVm.Number.Random
import PseudoVm.Value.Traversal
import PseudoVm.World.Console
import PseudoVm.World.Disk
/-!
# World.Basic: what library calls act on

The heap, the console, the random generator, the disk and the files a program has opened.  An execution and
the evaluations a debugger starts on it share one world.

A file opened for output holds back what is written until it is closed, or until nothing refers to it
(`release`).  A file opened for input reads ahead in blocks.
-/
namespace PseudoVm

/-- What an opened file is in the middle of. -/
inductive FileState
  /-- Text held back; it goes to the end of the file, or to its beginning. -/
  | output (appends : Bool) (pending : Bytes)
  /-- Bytes read ahead, up to `offset`. -/
  | input (offset : Nat) (ahead : Bytes)
  | closed
  deriving DecidableEq, Repr

/-- A file that was opened: the path as shown, the path on the disk, and its state. -/
structure OpenFile where
  name : String
  path : Path
  state : FileState
  deriving DecidableEq, Repr

def OpenFile.isOpen (f : OpenFile) : Bool :=
  match f.state with
  | .closed => false
  | _ => true

/-- Everything that library calls act on. -/
structure World where
  heap : Heap := {}
  console : Console
  random : Random
  disk : Disk := {}
  files : Array OpenFile := #[]
  /-- Files that nothing refers to any more. -/
  released : List FileId := []

namespace World

/-- Most bytes that are read ahead at once. -/
def blockSize : Nat := 8192

def file? (w : World) (id : FileId) : Option OpenFile := w.files[id.index]?

def setFile (w : World) (id : FileId) (state : FileState) : World :=
  { w with files := w.files.modify id.index fun f => { f with state := state } }

def addFile (w : World) (f : OpenFile) : FileId × World := (⟨w.files.size⟩, { w with files := w.files.push f })

def writeOut (w : World) (id : FileId) : World :=
  match w.file? id with
  | some ⟨_, path, .output appends pending⟩ =>
    if pending.isEmpty then w
    else { w with disk := if appends then w.disk.append path pending else w.disk.writeAt path 0 pending }
  | _ => w

def fileIds (w : World) : List FileId := (List.range w.files.size).map FileId.mk

/-- Whether a file holds text back that is still to be written. -/
def owes (w : World) (id : FileId) : Bool :=
  match w.file? id with
  | some ⟨_, _, .output _ pending⟩ => !pending.isEmpty && id ∉ w.released
  | _ => false

/-- Whether some file holds text back that is still to be written. -/
def owesText (w : World) : Bool := w.fileIds.any w.owes

/-- A file that nothing refers to any more: what it holds back is written. -/
def release (w : World) (id : FileId) : World :=
  let w := w.writeOut id
  { w with released := id :: w.released }

end World

end PseudoVm
