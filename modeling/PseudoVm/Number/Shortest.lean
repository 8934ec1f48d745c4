import PseudoVm.Number.Dyadic
/-!
# Number.Shortest: the fewest digits that read back

A finite real other than zero is the only real of its precision in an interval around it.  The grids of
decimals with 1, 2, … 17 digits are searched in this order; the first grid with a point in the interval gives
the digits.  Of two such points the nearer is taken, and of two equally near ones the one that the caller's
`Tie` names.
-/
namespace PseudoVm

/-- Which of two equally near decimals is taken. -/
inductive Tie
  | up
  | even
  deriving DecidableEq, Repr

/-- A decimal: `digits` read with a point after the first digit, times `10 ^ exponent`. -/
structure Decimal where
  digits : List Char
  exponent : Int
  deriving DecidableEq, Repr

namespace Shortest

/-- A fraction of whole numbers times a power of ten: the value `num / den`. -/
structure Ratio where
  num : Nat
  den : Nat

/-- The decimal exponent of a positive ratio: the `e` with `10 ^ e ≤ num / den < 10 ^ (e + 1)`. -/
def decimalExponent (r : Ratio) : Int :=
  if r.den ≤ r.num then ((Nat.toDigits 10 (r.num / r.den)).length : Int) - 1
  else
    let places := (Nat.toDigits 10 (r.den / r.num)).length
    if r.den ≤ r.num * Nat.pow 10 (places - 1) then -((places : Int) - 1) else -(places : Int)

/-- The interval of reals that round to a mantissa, in quarters of its unit: low end, value, high end. -/
def neighbourhood (d : Dyadic) : Nat × Nat × Nat :=
  let low := if d.mantissa = Bound.mantissa ∧ Dyadic.minExponent < d.exponent then 1 else 2
  (4 * d.mantissa - low, 4 * d.mantissa, 4 * d.mantissa + 2)

/-- The decimal with `count` digits next to the value, if it lies in the interval. -/
def onGrid (tie : Tie) (d : Dyadic) (exponent : Int) (count : Nat) : Option Nat :=
  let (low, value, high) := neighbourhood d
  let quarter := d.exponent - 2
  let unit := exponent - count + 1
  -- one grid step is `10 ^ unit`, one quarter is `2 ^ quarter`: both over a common denominator
  let step := Nat.pow 10 unit.toNat * Nat.pow 2 (-quarter).toNat
  let scale := Nat.pow 2 quarter.toNat * Nat.pow 10 (-unit).toNat
  let (low, value, high) := (low * scale, value * scale, high * scale)
  let inside (n : Nat) : Bool :=
    if d.mantissa % 2 = 0 then low ≤ n * step && n * step ≤ high else low < n * step && n * step < high
  let below := value / step
  let above := below + 1
  let down := value - below * step
  let up := above * step - value
  let roundUp : Bool := up < down || (up == down && (tie == .up || below % 2 == 1))
  match inside below, inside above with
  | true, true => some (if roundUp then above else below)
  | true, false => some below
  | false, true => some above
  | false, false => none

/-- The digits of a whole number without the zeros at its end. -/
def significant (n : Nat) : List Char :=
  match ((Nat.toDigits 10 n).reverse.dropWhile (· == '0')).reverse with
  | [] => ['0']
  | digits => digits

/-- The search over grids with `count`, `count + 1`, … digits. -/
def search (tie : Tie) (d : Dyadic) (exponent : Int) : Nat → Nat → Option (Nat × Nat)
  | _, 0 => none
  | count, more + 1 =>
    match onGrid tie d exponent count with
    | some n => some (n, count)
    | none => search tie d exponent (count + 1) more

end Shortest

/-- **The shortest decimal that reads back as the magnitude of a finite real.** -/
def shortestDecimal (tie : Tie) (x : Float) : Decimal :=
  let d := Dyadic.ofFloat x
  if d.mantissa = 0 then ⟨['0'], 0⟩
  else
    let exponent := Shortest.decimalExponent
      ⟨d.mantissa * Nat.pow 2 d.exponent.toNat, Nat.pow 2 (-d.exponent).toNat⟩
    match Shortest.search tie d exponent 1 17 with
    | some (n, count) =>
      -- a neighbour one digit longer than its grid is the next power of ten
      let carry : Int := if Nat.pow 10 count ≤ n then 1 else 0
      ⟨Shortest.significant n, exponent + carry⟩
    | none => ⟨['0'], 0⟩

end PseudoVm
