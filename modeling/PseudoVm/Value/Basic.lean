import PseudoVm.Text.Utf8
/-!
# Value.Basic: values, references and the heap

Arrays, objects and files have identity: a value names its storage, and copies of the value share it.  The heap
holds the storage of arrays and objects; files are in the store of open files.

References into frames name a frame by its place from the bottom of the call stack.
-/
namespace PseudoVm

/-- The identity of an array. -/
structure ArrayId where
  index : Nat
  deriving DecidableEq, Repr

/-- The identity of an object. -/
structure ObjectId where
  index : Nat
  deriving DecidableEq, Repr

/-- The identity of a file. -/
structure FileId where
  index : Nat
  deriving DecidableEq, Repr

/-- A place that can be read and written. -/
inductive Reference
  | global (slot : Nat)
  /-- A local of a frame; frame 0 is the bottom of the call stack. -/
  | local (frame slot : Nat)
  | param (frame slot : Nat)
  | element (array : ArrayId) (index : Nat)
  | field (object : ObjectId) (index : Nat)
  deriving DecidableEq, Repr

/-- Values of a program. -/
inductive Value
  | int (n : Int64)
  | real (x : Float)
  | bool (b : Bool)
  | char (c : UInt8)
  | str (bytes : Bytes)
  | array (id : ArrayId)
  | object (cls : Nat) (id : ObjectId)
  | file (id : FileId)
  | ref (r : Reference)
  deriving Repr

def Value.text (s : String) : Value := .str (bytesOf s)

/-- The types of values, as far as messages tell them apart. -/
inductive TypeName
  | integer | real | boolean | character | string | array | object | file | reference
  deriving DecidableEq, Repr

def TypeName.text : TypeName → String
  | .integer => "Integer"
  | .real => "Real"
  | .boolean => "Boolean"
  | .character => "Character"
  | .string => "String"
  | .array => "Array"
  | .object => "Object"
  | .file => "File"
  | .reference => "Reference"

def Value.typeName : Value → TypeName
  | .int _ => .integer
  | .real _ => .real
  | .bool _ => .boolean
  | .char _ => .character
  | .str _ => .string
  | .array _ => .array
  | .object _ _ => .object
  | .file _ => .file
  | .ref _ => .reference

/-- Something with identity that values refer to. -/
inductive Storage
  | array (id : ArrayId)
  | object (id : ObjectId)
  | file (id : FileId)
  deriving DecidableEq, Repr

/-- The storage that a value refers to; places in frames are not storage. -/
def Value.storage? : Value → Option Storage
  | .array id | .ref (.element id _) => some (.array id)
  | .object _ id | .ref (.field id _) => some (.object id)
  | .file id => some (.file id)
  | _ => none

/-- The storage of arrays and objects, by identity. -/
structure Heap where
  arrays : Array (Array Value) := #[]
  objects : Array (Array (Option Value)) := #[]
  deriving Inhabited

namespace Heap

def items? (heap : Heap) (id : ArrayId) : Option (Array Value) := heap.arrays[id.index]?

/-- The fields of an object; a field may not have been assigned. -/
def fields? (heap : Heap) (id : ObjectId) : Option (Array (Option Value)) := heap.objects[id.index]?

def newArray (heap : Heap) (items : Array Value) : ArrayId × Heap :=
  (⟨heap.arrays.size⟩, { heap with arrays := heap.arrays.push items })

def fieldSize : Nat := 24

def newObject (heap : Heap) (fields : Array (Option Value)) : ObjectId × Heap :=
  (⟨heap.objects.size⟩, { heap with objects := heap.objects.push fields })

def setElement (heap : Heap) (id : ArrayId) (index : Nat) (v : Value) : Heap :=
  { heap with arrays := heap.arrays.modify id.index fun items => items.setIfInBounds index v }

def setField (heap : Heap) (id : ObjectId) (index : Nat) (v : Value) : Heap :=
  { heap with objects := heap.objects.modify id.index fun fields => fields.setIfInBounds index (some v) }

/-- The values inside storage, from the first to the last. -/
def inside (heap : Heap) : Storage → List Value
  | .array id => ((heap.items? id).getD #[]).toList
  | .object id => ((heap.fields? id).getD #[]).toList.filterMap (·)
  | .file _ => []

end Heap

end PseudoVm
