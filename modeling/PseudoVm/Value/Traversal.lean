import PseudoVm.Number.RealText
import PseudoVm.Text.Escaped
import PseudoVm.Value.Basic
/-!
# Value.Traversal: operations that go through nested arrays

Showing, comparing and copying a value enter the arrays inside it.  Each array is locked while its items are
visited, so a traversal that comes back to an array it is inside of waits for ever.  The functions here carry
the arrays that are locked (`inside`) and give `none` for such a wait; `fuel` is the number of arrays in the
heap and is never used up before.
-/
namespace PseudoVm

namespace Heap

/-- The items of an array that can be entered: `none` if it is locked. -/
def enter? (heap : Heap) (inside : List ArrayId) (id : ArrayId) : Option (List Value) :=
  if id ∈ inside then none else some ((heap.items? id).getD #[]).toList

/-- How many arrays a traversal can be inside of at once. -/
def depthBound (heap : Heap) : Nat := heap.arrays.size + 1

def displayFrom (heap : Heap) : Nat → List ArrayId → Value → Option String
  | _, _, .int n => some (Numeral.intText n)
  | _, _, .real x => some (realText x)
  | _, _, .bool true => some "True"
  | _, _, .bool false => some "False"
  | _, _, .char c => some (Char.ofNat c.toNat).toString
  | _, _, .str bytes => some (Utf8.textLossy bytes)
  | _, _, .object cls _ => some ("<object #" ++ toString cls ++ ">")
  | _, _, .file _ => some "<file>"
  | _, _, .ref _ => some "<ref>"
  | 0, _, .array _ => none
  | fuel + 1, inside, .array id => do
    let items ← heap.enter? inside id
    let shown ← items.mapM (displayFrom heap fuel (id :: inside))
    return "[" ++ String.intercalate " " shown ++ "]"

def display? (heap : Heap) (v : Value) : Option String := heap.displayFrom heap.depthBound [] v

def inspectFrom (heap : Heap) : Nat → List ArrayId → Value → Option String
  | _, _, .str bytes => some (escapedText (Utf8.textLossy bytes))
  | _, _, .char c => some (escapedChar (Char.ofNat c.toNat))
  | _, _, .int n => some (Numeral.intText n)
  | _, _, .real x => some (realText x)
  | _, _, .bool true => some "True"
  | _, _, .bool false => some "False"
  | _, _, .object cls _ => some ("<object #" ++ toString cls ++ ">")
  | _, _, .file _ => some "<file>"
  | _, _, .ref _ => some "<ref>"
  | 0, _, .array _ => none
  | fuel + 1, inside, .array id => do
    let items ← heap.enter? inside id
    let shown ← items.mapM (inspectFrom heap fuel (id :: inside))
    return "[" ++ String.intercalate ", " shown ++ "]"

/-- A value as a debugger shows it: strings and characters quoted. -/
def inspect? (heap : Heap) (v : Value) : Option String := heap.inspectFrom heap.depthBound [] v

/-- Two lists compared item by item up to the first difference. -/
def pairwise? (same? : Value → Value → Option Bool) : List Value → List Value → Option Bool
  | [], [] => some true
  | a :: as, b :: bs =>
    match same? a b with
    | some true => pairwise? same? as bs
    | other => other
  | _, _ => some false

/-- Whether two values are equal: arrays by their items, everything else with storage by identity. -/
def equalFrom (heap : Heap) : Nat → List ArrayId → Value → Value → Option Bool
  | _, _, .int a, .int b => some (a == b)
  | _, _, .real a, .real b => some (a == b)
  | _, _, .bool a, .bool b => some (a == b)
  | _, _, .char a, .char b => some (a == b)
  | _, _, .str a, .str b => some (a == b)
  | _, _, .object _ a, .object _ b => some (a == b)
  | _, _, .file a, .file b => some (a == b)
  | _, _, .ref a, .ref b => some (a == b)
  | fuel, inside, .array a, .array b =>
    if a = b then some true
    else
      match fuel with
      | 0 => none
      | fuel + 1 => do
        let as ← heap.enter? inside a
        let bs ← heap.enter? (a :: inside) b
        if as.length = bs.length then pairwise? (equalFrom heap fuel (b :: a :: inside)) as bs else some false
  | _, _, _, _ => some false

def equal? (heap : Heap) (a b : Value) : Option Bool := heap.equalFrom heap.depthBound [] a b

/-- Items copied one after the other, each in the heap that the one before left. -/
def copyItems? (copy? : Heap → Value → Option (Value × Heap)) : Heap → List Value → Option (List Value × Heap)
  | heap, [] => some ([], heap)
  | heap, v :: rest => do
    let (v, heap) ← copy? heap v
    let (rest, heap) ← copyItems? copy? heap rest
    return (v :: rest, heap)

/-- A copy of a value whose arrays are new down to `dims` levels. -/
def copyFrom : Nat → List ArrayId → Heap → Value → Option (Value × Heap)
  | dims + 1, inside, heap, .array id => do
    let items ← heap.enter? inside id
    let (items, heap) ← copyItems? (copyFrom dims (id :: inside)) heap items
    let (copy, heap) := heap.newArray items.toArray
    return (.array copy, heap)
  | _, _, heap, v => some (v, heap)

/-- A copy of a value whose arrays are new down to `dims` levels; everything else is shared. -/
def copy? (heap : Heap) (dims : Nat) (v : Value) : Option (Value × Heap) := copyFrom dims [] heap v

end Heap

end PseudoVm
