/-!
# Json.Basic: JSON values

Numbers come in two kinds, as image files tell them apart: whole numbers, and reals.  Members of an object
keep their order and may repeat a name; who reads the object decides what that means.
-/
namespace PseudoVm

/-- A JSON value. -/
inductive Json
  | null
  | bool (b : Bool)
  | int (n : Int)
  | real (x : Float)
  | str (s : String)
  /-- A string literal with half of a surrogate pair, or an object with such a name: well formed, but not to be
  read. -/
  | unpaired
  | arr (items : List Json)
  | obj (members : List (String × Json))
  deriving Inhabited

namespace Json

/-- The value of a member, if there is one of that name. -/
def member? (name : String) : Json → Option Json
  | .obj members => members.lookup name
  | _ => none

/-- The values of an object's members of the given names, or a list's items in their order.  An object may
hold other members, but none of these names twice; a list may stop early, but holds no more items. -/
def record? (names : List String) : Json → Option (List (Option Json))
  | .obj members =>
    if names.all fun name => members.countP (·.1 == name) ≤ 1 then some (names.map fun name => members.lookup name) else none
  | .arr items =>
    if items.length ≤ names.length then some (names.mapIdx fun i _ => items[i]?) else none
  | _ => none

/-- One of several cases: a name alone, or an object whose only member is the case's name and data. -/
def case? : Json → Option (String × Option Json)
  | .str name => some (name, none)
  | .obj [(name, data)] => some (name, some data)
  | _ => none

end Json

end PseudoVm
