import PseudoVm.Toml.Moment
/-!
# Toml.Basic: settings files as statements

A settings file is a sequence of table headers and entries.  Settings are strings, integers and truth values, in
tables or in lists; no setting is a real or a moment, but a list may hold one where nothing is looked up.
-/
namespace PseudoVm

namespace Toml

/-- A value of an entry. -/
inductive Value
  | str (s : String)
  | int (n : Int)
  | real (x : Float)
  | bool (b : Bool)
  | moment (m : Moment)
  | arr (items : List Value)
  /-- A table in braces, its entries by their paths. -/
  | table (entries : List (List String × Value))
  deriving Inhabited

/-- One statement of a file. -/
inductive Statement
  | header (path : List String)
  | entry (path : List String) (value : Value)
  deriving Inhabited

end Toml

end PseudoVm
