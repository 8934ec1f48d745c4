import PseudoVm.World.Basic
/-!
# World.Release: what happens to storage that nothing refers to

Storage is referred to from outside the heap and from other storage.  When its last reference is let go, a file is
released, and an array or object lets go of what is inside it, from the first value to the last, before anything
else is let go.  Storage that refers to itself, directly or in a circle, keeps its last reference for ever.

What was freed stays in the heap with its content, so a count of references (`Tally`) starts from everything in the
heap and then takes back what the storage without references held.
-/
namespace PseudoVm

/-- How many references there are to each piece of storage. -/
structure Tally where
  arrays : Array Nat
  objects : Array Nat
  files : Array Nat
  deriving DecidableEq, Repr

namespace Tally

def zero (arrays objects files : Nat) : Tally :=
  ⟨Array.replicate arrays 0, Array.replicate objects 0, Array.replicate files 0⟩

def of (t : Tally) : Storage → Nat
  | .array id => t.arrays.getD id.index 0
  | .object id => t.objects.getD id.index 0
  | .file id => t.files.getD id.index 0

/-- Changes the number of references to a piece of storage. -/
def adjust (t : Tally) (f : Nat → Nat) : Storage → Tally
  | .array id => { t with arrays := t.arrays.modify id.index f }
  | .object id => { t with objects := t.objects.modify id.index f }
  | .file id => { t with files := t.files.modify id.index f }

def count (t : Tally) (v : Value) : Tally :=
  match v.storage? with
  | some s => t.adjust (· + 1) s
  | none => t

end Tally

namespace Heap

def cells (heap : Heap) : List Storage :=
  (List.range heap.arrays.size).map (fun i => .array ⟨i⟩) ++ (List.range heap.objects.size).map (fun i => .object ⟨i⟩)

def weight (heap : Heap) : Nat :=
  heap.arrays.foldl (fun n a => n + a.size) 0 + heap.objects.foldl (fun n o => n + o.size) 0

/-- Lets go of values one after the other: the references that are left, and the storage freed, the latest first.
At most `fuel` values are let go. -/
def letGoFrom (heap : Heap) : Nat → Tally → List Storage → List Value → Tally × List Storage
  | 0, t, freed, _ => (t, freed)
  | _, t, freed, [] => (t, freed)
  | fuel + 1, t, freed, v :: rest =>
    match v.storage? with
    | none => heap.letGoFrom fuel t freed rest
    | some s =>
      let t := t.adjust (· - 1) s
      if t.of s = 0 then heap.letGoFrom fuel t (s :: freed) (heap.inside s ++ rest)
      else heap.letGoFrom fuel t freed rest

/-- Lets go of values one after the other.  Storage is freed once, so no more values are let go than these and
those in the heap. -/
def letGo (heap : Heap) (t : Tally) (values : List Value) : Tally × List Storage :=
  heap.letGoFrom (heap.weight + values.length + 1) t [] values

/-- The references that there are if `held` are the values outside the heap. -/
def tally (heap : Heap) (files : Nat) (held : List Value) : Tally :=
  let cells := heap.cells
  let t := cells.foldl (fun t s => (heap.inside s).foldl Tally.count t)
    (held.foldl Tally.count (Tally.zero heap.arrays.size heap.objects.size files))
  (heap.letGo t ((cells.filter (t.of · = 0)).flatMap heap.inside)).1

end Heap

namespace World

/-- The files that are freed when `loose` are let go one after the other and `held` stay. -/
def freedFiles (w : World) (held loose : List Value) : List FileId :=
  let t := w.heap.tally w.files.size (loose ++ held)
  (w.heap.letGo t loose).2.reverse.filterMap fun
    | .file id => some id
    | _ => none

/-- **Lets go of values one after the other**, with `held` as the values that stay.  Values whose storage is among
that of `held` free nothing. -/
def letGo (w : World) (held loose : List Value) : World :=
  let doubtful := loose.filter fun v => !held.any (·.storage? == v.storage?)
  if doubtful.isEmpty then w else (w.freedFiles held doubtful).foldl release w

end World

end PseudoVm
