import PseudoVm.Number.Numeral
/-!
# Number.Grouped: numbers with thousands set apart

`thousands` puts a comma before every group of three digits but the first.  Amounts are counted in hundredths
and written with two places.
-/
namespace PseudoVm

namespace Grouped

def groups : List Char → List Char
  | a :: b :: c :: rest => ',' :: a :: b :: c :: groups rest
  | rest => rest

/-- How many digits stand before the first comma. -/
def lead (count : Nat) : Nat := if count % 3 = 0 then 3 else count % 3

def thousands (digits : List Char) : List Char :=
  digits.take (lead digits.length) ++ groups (digits.drop (lead digits.length))

/-- A whole number with its thousands set apart. -/
def whole (n : Int) : String :=
  (if n < 0 then "-" else "") ++ String.ofList (thousands (Nat.toDigits 10 n.natAbs))

/-- An amount of hundredths: sign, mark, grouped whole part, point, two places. -/
def hundredths (mark : String) (n : Int) : String :=
  (if n < 0 then "-" else "") ++ mark ++ String.ofList (thousands (Nat.toDigits 10 (n.natAbs / 100)))
    ++ "." ++ Numeral.padded 2 (n.natAbs % 100)

end Grouped

end PseudoVm
