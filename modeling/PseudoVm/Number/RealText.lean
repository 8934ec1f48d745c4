import PseudoVm.Number.Numeral
import PseudoVm.Number.Shortest
/-!
# Number.RealText: real numbers as text

Writing starts from the shortest decimal that reads back and lays it out; `RealFormat` holds what differs
between the program's own output and the image file.  Reading accepts a decimal with an optional sign,
fraction and exponent, and the names of the infinities and of NaN in any case, and rounds to nearest.
-/
namespace PseudoVm

/-- How a decimal is laid out. -/
structure RealFormat where
  /-- Least decimal exponent written without an exponent. -/
  positionalFrom : Int
  /-- First decimal exponent above those written without one. -/
  positionalBelow : Int
  /-- What follows a whole number written without an exponent. -/
  wholeSuffix : String
  /-- Least number of digits of a written exponent. -/
  exponentWidth : Nat
  tie : Tie

/-- A real as a program displays it: six whole digits before an exponent of at least two digits is used. -/
def RealFormat.display : RealFormat := ⟨-4, 6, "", 2, .up⟩

/-- A real as an image file holds it: always recognisable as a real. -/
def RealFormat.image : RealFormat := ⟨-5, 16, ".0", 1, .even⟩

namespace RealText

def positional (suffix : String) (d : Decimal) : String :=
  if d.exponent < 0 then
    "0." ++ String.ofList (List.replicate ((-d.exponent).toNat - 1) '0' ++ d.digits)
  else
    let whole := d.exponent.toNat + 1
    if d.digits.length ≤ whole then
      String.ofList (d.digits ++ List.replicate (whole - d.digits.length) '0') ++ suffix
    else String.ofList (d.digits.take whole) ++ "." ++ String.ofList (d.digits.drop whole)

/-- A decimal written with one digit before the point and a signed exponent. -/
def scientific (width : Nat) (d : Decimal) : String :=
  let mantissa := match d.digits with
    | [] => "0"
    | [digit] => digit.toString
    | digit :: rest => digit.toString ++ "." ++ String.ofList rest
  mantissa ++ (if d.exponent < 0 then "e-" else "e+") ++ Numeral.padded width d.exponent.natAbs

def finite (format : RealFormat) (x : Float) : String :=
  let d := shortestDecimal format.tie x
  let sign := if (Dyadic.ofFloat x).negative then "-" else ""
  sign ++
    if format.positionalFrom ≤ d.exponent ∧ d.exponent < format.positionalBelow then positional format.wholeSuffix d
    else scientific format.exponentWidth d

end RealText

def realText (x : Float) : String :=
  if x.isNaN then "NaN"
  else if x.isInf then (if x > 0.0 then "+Inf" else "-Inf")
  else RealText.finite .display x

/-- Why a text is no real number. -/
inductive RealTextError
  | empty
  | invalid
  deriving DecidableEq, Repr

def RealTextError.message : RealTextError → String
  | .empty => "cannot parse float from empty string"
  | .invalid => "invalid float literal"

namespace RealText

/-- `significand · 10 ^ exponent` rounded to the nearest real; `places` is the number of digits written. -/
def round (significand places : Nat) (exponent : Int) : Float :=
  if significand = 0 then 0.0
  else if (places : Int) + exponent < -400 then 0.0
  else if 20000 < exponent then 1.0 / 0.0
  else Float.ofScientific significand (exponent < 0) exponent.natAbs

def valueOf (digits : List Char) : Nat := digits.foldl (fun n c => n * 10 + (c.toNat - 48)) 0

/-- The exponent after its mark: an optional sign and one or more digits. -/
def readExponent (cs : List Char) : Option Int :=
  let (negative, digits) := match cs with
    | '+' :: rest => (false, rest)
    | '-' :: rest => (true, rest)
    | rest => (false, rest)
  if digits.isEmpty || !digits.all Char.isDigit then none
  else some (if negative then -(valueOf digits : Int) else valueOf digits)

/-- A decimal without a sign: digits with at most one point among them, and an optional exponent. -/
def readDecimal (cs : List Char) : Option Float := do
  let whole := cs.takeWhile Char.isDigit
  let rest := cs.dropWhile Char.isDigit
  let (fraction, rest) := match rest with
    | '.' :: rest => (rest.takeWhile Char.isDigit, rest.dropWhile Char.isDigit)
    | rest => ([], rest)
  guard !(whole.isEmpty && fraction.isEmpty)
  let exponent ← match rest with
    | [] => some 0
    | c :: rest => if c = 'e' || c = 'E' then readExponent rest else none
  let digits := (whole ++ fraction).dropWhile (· == '0')
  some (round (valueOf digits) digits.length (exponent - fraction.length))

/-- A real without a sign. -/
def readUnsigned (cs : List Char) : Option Float :=
  let name := cs.map Char.toLower
  if name = "inf".toList || name = "infinity".toList then some (1.0 / 0.0)
  else if name = "nan".toList then some (0.0 / 0.0)
  else readDecimal cs

/-- A real number: an optional sign, then a decimal or a name. -/
def read (cs : List Char) : Except RealTextError Float :=
  match cs with
  | [] => .error .empty
  | c :: rest =>
    let value :=
      if c = '-' then (readUnsigned rest).map fun x => -x
      else if c = '+' then readUnsigned rest
      else readUnsigned cs
    match value with
    | some x => .ok x
    | none => .error .invalid

end RealText

end PseudoVm
