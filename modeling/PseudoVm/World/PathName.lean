/-!
# World.PathName: path names as text

What can be read off a path's text alone: the name above it, its last name with and without an ending, and the
name of something below it.  Empty names and `.` inside a path do not count, except a `.` at its beginning.
-/
namespace PseudoVm

namespace PathName

def split (path : String) : List String := (path.toList.splitOn '/').map String.ofList

def isIdle (name : String) : Bool := name == "" || name == "."

/-- Names, the last first, without idle ones at the end; the first name of all stays. -/
def settle : List String → List String
  | [] => []
  | [name] => [name]
  | name :: rest => if isIdle name then settle rest else name :: rest

/-- The names of a path, the last first. -/
def names (path : String) : List String := settle (split path).reverse

/-- A path of names, the last first; the root alone is written as a slash. -/
def ofNames (names : List String) : String := if names = [""] then "/" else String.intercalate "/" names.reverse

/-- The path above a path: there is none above the root and above the empty path. -/
def parent? (path : String) : Option String :=
  match names path with
  | [] => none
  | [name] => if name = "" then none else some ""
  | _ :: rest => some (ofNames (settle rest))

/-- A path and all above it; every one is shorter than the one before. -/
def ancestorsFor : Nat → String → List String
  | 0, path => [path]
  | fuel + 1, path =>
    match parent? path with
    | none => [path]
    | some parent => path :: ancestorsFor fuel parent

def ancestors (path : String) : List String := ancestorsFor path.length path

def join (dir name : String) : String :=
  if name.startsWith "/" || dir.isEmpty then name else if dir.endsWith "/" then dir ++ name else dir ++ "/" ++ name

/-- The last name of a path, unless the path ends in the root or goes up. -/
def fileName? (path : String) : Option String :=
  match names path with
  | name :: _ => if name = "" ∨ name = "." ∨ name = ".." then none else some name
  | [] => none

/-- What stands before and after the last dot of a name; a dot that is its first character does not count. -/
def splitEnding (name : String) : String × String :=
  match name.toList.reverse.span (· != '.') with
  | (_, []) | (_, [_]) => (name, "")
  | (ending, _ :: before) => (String.ofList before.reverse, String.ofList ending.reverse)

/-- A name without its ending. -/
def stem (name : String) : String := (splitEnding name).1

/-- The last name of a path without its ending. -/
def fileStem? (path : String) : Option String := (fileName? path).map stem

/-- The path with what its last name ends in replaced; a path without a last name stays as it is. -/
def setEnding (path ending : String) : String :=
  match names path with
  | name :: rest =>
    if (fileName? path).isNone then path
    else String.intercalate "/" ((stem name ++ "." ++ ending) :: rest).reverse
  | [] => path

/-- The path without as many characters at its end as its last name's ending has. -/
def cutEnding (path : String) : String :=
  let size := (((fileName? path).map splitEnding).map (·.2.length)).getD 0
  String.ofList (path.toList.take (path.length - size))

/-- The path with another ending of its last name.  The ending is cut off before the other is set, so a last name of
a dot and an ending, `..txt`, gets none: what is left of it leads up. -/
def withEnding (path ending : String) : String := setEnding (cutEnding path) ending

end PathName

end PseudoVm
