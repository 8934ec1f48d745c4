import PseudoVm.Number.Bounds
/-!
# Number.Numeral: whole numbers as text

Reading accepts an optional sign and one or more digits and nothing else.  Digits are taken from left to right
and the first fault found is reported: a character that is no digit, or the digit at which the value leaves
its range.
-/
namespace PseudoVm

/-- Why a text is no whole number of the wanted range. -/
inductive NumeralError
  | empty
  | invalidDigit
  | tooLarge
  | tooSmall
  deriving DecidableEq, Repr

def NumeralError.message : NumeralError → String
  | .empty => "cannot parse integer from empty string"
  | .invalidDigit => "invalid digit found in string"
  | .tooLarge => "number too large to fit in target type"
  | .tooSmall => "number too small to fit in target type"

namespace Numeral

/-- The value of a digit of the given radix, letters of either case above nine. -/
def digit? (radix : Nat) (c : Char) : Option Nat :=
  let v :=
    if '0' ≤ c ∧ c ≤ '9' then some (c.toNat - 48)
    else if 'a' ≤ c ∧ c ≤ 'z' then some (c.toNat - 87)
    else if 'A' ≤ c ∧ c ≤ 'Z' then some (c.toNat - 55)
    else none
  v.filter (· < radix)

/-- Digits appended to `value`, as long as the value stays within `bound`. -/
def extend (radix bound : Nat) (overflow : NumeralError) : Nat → List Char → Except NumeralError Nat
  | value, [] => .ok value
  | value, c :: rest =>
    match digit? radix c with
    | none => .error .invalidDigit
    | some d =>
      if value * radix + d ≤ bound then extend radix bound overflow (value * radix + d) rest
      else .error overflow

def magnitude (radix bound : Nat) (overflow : NumeralError) : List Char → Except NumeralError Nat
  | [] => .error .invalidDigit
  | cs => extend radix bound overflow 0 cs

/-- A number from 0 to `bound`: an optional plus sign and digits. -/
def readNat (radix bound : Nat) : List Char → Except NumeralError Nat
  | [] => .error .empty
  | '+' :: digits => magnitude radix bound .tooLarge digits
  | digits => magnitude radix bound .tooLarge digits

def wordMax : Nat := Bound.word - 1

/-- A 64-bit number without a sign bit, in decimal. -/
def readWord (cs : List Char) : Except NumeralError Nat := readNat 10 wordMax cs

/-- A 64-bit integer: an optional sign and digits. -/
def readInt : List Char → Except NumeralError Int64
  | [] => .error .empty
  | '+' :: digits => (magnitude 10 (Bound.int - 1) .tooLarge digits).map fun n => Int64.ofInt n
  | '-' :: digits => (magnitude 10 Bound.int .tooSmall digits).map fun n => Int64.ofInt (-n)
  | digits => (magnitude 10 (Bound.int - 1) .tooLarge digits).map fun n => Int64.ofInt n

def intText (n : Int64) : String := toString n.toInt

/-- A number in decimal with at least `width` digits. -/
def padded (width n : Nat) : String :=
  let digits := Nat.toDigits 10 n
  String.ofList (List.replicate (width - digits.length) '0' ++ digits)

end Numeral

/-- The number a text denotes, if it is one below 2^64. -/
def wordOf? (s : String) : Option Nat := (Numeral.readWord s.toList).toOption

end PseudoVm
