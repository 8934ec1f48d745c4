import PseudoVm.Library.Arguments
/-!
# Library.Strings: functions on strings

Strings are bytes; lengths and positions count bytes, and case is that of ASCII letters.  A range is given by
its first and last position, so the empty string at `start` has the end `start - 1`.
-/
namespace PseudoVm

namespace Library

def upperByte (b : UInt8) : UInt8 := if 0x61 ≤ b ∧ b ≤ 0x7A then b - 32 else b

def lowerByte (b : UInt8) : UInt8 := if 0x41 ≤ b ∧ b ≤ 0x5A then b + 32 else b

/-- The bytes from position `first` to position `last`, both included. -/
def slice? (s : Bytes) (first last : Int64) : Option Bytes :=
  let stop : Int := min (last.toInt + 1) (Bound.int - 1)
  if first.toInt < 0 ∨ stop < first.toInt ∨ (s.length : Int) < stop then none
  else some ((s.drop first.toInt.toNat).take (stop - first.toInt).toNat)

def occursIn (needle : Bytes) : Bytes → Bool
  | [] => needle.isEmpty
  | b :: rest => needle.isPrefixOf (b :: rest) || occursIn needle rest

def length (args : List Value) : Except Fault Value := do
  let a ← one "length" args
  return .int (Int64.ofNat (← a.asStr).length)

def append (args : List Value) : Except Fault Value := do
  let (a, b) ← two "append" args
  return .str ((← a.asStr) ++ (← b.asStr))

def caseMap (function : String) (f : UInt8 → UInt8) (args : List Value) : Except Fault Value := do
  let a ← one function args
  return .str ((← a.asStr).map f)

def substring (args : List Value) : Except Fault Value := do
  let (s, first, last) ← three "substring" args
  let s ← s.asStr
  let first ← first.asInt
  let last ← last.asInt
  match slice? s first last with
  | some part => return .str part
  | none => throw (rejected "substring" ("range [" ++ Numeral.intText first ++ ", " ++ Numeral.intText last
      ++ "] out of bounds for length " ++ toString s.length))

def contains (args : List Value) : Except Fault Value := do
  let (haystack, needle) ← two "contains" args
  let haystack ← haystack.asStr
  let needle ← needle.asStr
  return .bool (occursIn needle haystack)

def stringToInteger (args : List Value) : Except Fault Value := do
  let text ← textOf (← one "stringToInteger" args)
  match Numeral.readInt text.toList with
  | .ok n => return .int n
  | .error e => throw (rejected "stringToInteger" (escapedText text ++ ": " ++ e.message))

def stringToReal (args : List Value) : Except Fault Value := do
  let text ← textOf (← one "stringToReal" args)
  match RealText.read text.toList with
  | .ok x => return .real x
  | .error e => throw (rejected "stringToReal" (escapedText text ++ ": " ++ e.message))

def isInteger (args : List Value) : Except Fault Value := do
  let text ← textOf (← one "isInteger" args)
  return .bool (Numeral.readInt text.toList).isOk

def isReal (args : List Value) : Except Fault Value := do
  let text ← textOf (← one "isReal" args)
  return .bool (RealText.read text.toList).isOk

end Library

end PseudoVm
