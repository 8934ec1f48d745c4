/-!
# Number.Power: integer powers

Exponentiation by repeated squaring.  Every product wraps around at 64 bits, and a negative exponent gives 0.
-/
namespace PseudoVm

namespace Power

/-- `result * base ^ exponent`, one bit of the exponent at a time. -/
def squaring (result base : Int64) (exponent : Nat) : Int64 :=
  if h : exponent = 0 then result
  else
    let result := if exponent % 2 = 1 then result * base else result
    squaring result (base * base) (exponent / 2)
termination_by exponent
decreasing_by omega

end Power

/-- `base` raised to `exponent`, wrapping around. -/
def intPower (base exponent : Int64) : Int64 :=
  if exponent < 0 then 0 else Power.squaring 1 base exponent.toInt.toNat

end PseudoVm
