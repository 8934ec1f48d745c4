import PseudoVm.Number.Bounds
/-!
# Number.Dyadic: a real number as a whole number times a power of two

Every finite real is `mantissa · 2 ^ exponent` with a sign.  Exact questions about reals (their shortest
decimal, the remainder of a division, their value as a whole number) are answered on this form.
-/
namespace PseudoVm

/-- A finite real: sign, mantissa below 2^53, and power of two. -/
structure Dyadic where
  negative : Bool
  mantissa : Nat
  exponent : Int
  deriving DecidableEq, Repr

namespace Dyadic

def minExponent : Int := -1074

def ofFloat (x : Float) : Dyadic :=
  let bits := x.toBits.toNat
  let biased : Nat := bits / Bound.mantissa % 2048
  let fraction : Nat := bits % Bound.mantissa
  { negative := Bound.int ≤ bits
    mantissa := if biased = 0 then fraction else Bound.mantissa + fraction
    exponent := if biased = 0 then minExponent else (biased : Int) - 1075 }

/-- The whole number that a real without a fraction is. -/
def toInt (d : Dyadic) : Int :=
  let magnitude : Nat :=
    if d.exponent < 0 then d.mantissa / Nat.pow 2 (-d.exponent).toNat else d.mantissa * Nat.pow 2 d.exponent.toNat
  if d.negative then -(magnitude : Int) else magnitude

/-- The mantissa of `d` counted in units of `2 ^ exponent`, for an exponent not above its own. -/
def scaledTo (d : Dyadic) (exponent : Int) : Nat := d.mantissa * Nat.pow 2 (d.exponent - exponent).toNat

end Dyadic

/-- The remainder of a division whose quotient is rounded toward zero: exact, with the sign of the dividend. -/
def realRemainder (a b : Float) : Float :=
  if a.isNaN || b.isNaN || a.isInf || b == 0.0 then 0.0 / 0.0
  else if b.isInf then a
  else
    let da := Dyadic.ofFloat a
    let db := Dyadic.ofFloat b
    let exponent := min da.exponent db.exponent
    let remainder := da.scaledTo exponent % db.scaledTo exponent
    let magnitude := (Float.ofNat remainder).scaleB exponent
    if da.negative then -magnitude else magnitude

end PseudoVm
