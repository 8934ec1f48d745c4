import PseudoVm.World.Basic
/-!
# Library.Arguments: what library functions are given

Functions check the number of their arguments before anything else, then their types from left to right.
-/
namespace PseudoVm

namespace Library

def rejected (function message : String) : Fault := .libArgument function message

def wrongCount (function : String) (expected : Nat) (args : List Value) : Fault :=
  rejected function ("expected " ++ toString expected ++ " argument(s), found " ++ toString args.length)

def noArguments (function : String) : List Value → Except Fault Unit
  | [] => .ok ()
  | args => .error (wrongCount function 0 args)

def one (function : String) : List Value → Except Fault Value
  | [a] => .ok a
  | args => .error (wrongCount function 1 args)

def two (function : String) : List Value → Except Fault (Value × Value)
  | [a, b] => .ok (a, b)
  | args => .error (wrongCount function 2 args)

def three (function : String) : List Value → Except Fault (Value × Value × Value)
  | [a, b, c] => .ok (a, b, c)
  | args => .error (wrongCount function 3 args)

def textOf (v : Value) : Except Fault String := do return Utf8.textLossy (← v.asStr)

end Library

end PseudoVm
