import PseudoVm.Library.Arguments
import PseudoVm.Number.Grouped
/-!
# Library.Math: functions on numbers

Real parameters take integers too.  Results follow IEEE 754, so a value outside a function's domain gives NaN
rather than a fault.
-/
namespace PseudoVm

namespace Library

def realFunction (function : String) (f : Float → Float) (args : List Value) : Except Fault Value := do
  let a ← one function args
  return .real (f (← a.toReal))

def pow (args : List Value) : Except Fault Value := do
  let (base, exponent) ← two "pow" args
  return .real (Float.pow (← base.toReal) (← exponent.toReal))

/-- The magnitude of an integer or a real; that of the least integer wraps around to itself. -/
def abs (args : List Value) : Except Fault Value := do
  match ← one "abs" args with
  | .int n => return .int (if n < 0 then -n else n)
  | v => return .real (← v.toReal).abs

/-- A real without its fraction, held inside the range of integers. -/
def toInteger (args : List Value) : Except Fault Value := do
  let a ← one "toInteger" args
  return .int (← a.asReal).toInt64

def toReal (args : List Value) : Except Fault Value := do
  let a ← one "toReal" args
  return .real (← a.asInt).toFloat

def integerFormat (args : List Value) : Except Fault Value := do
  let a ← one "integerFormat" args
  return .text (Grouped.whole (← a.asInt).toInt)

def notFinite (x : Float) : String := if x.isNaN then "NaN" else if x > 0.0 then "inf" else "-inf"

/-- An amount in hundredths, a half rounded away from zero, held inside 128 bits. -/
def hundredthsOf (function : String) (x : Float) : Except Fault Int :=
  if x.isNaN || x.isInf then .error (rejected function ("cannot format " ++ notFinite x))
  else
    let scaled := (x * 100.0).round
    if scaled.isInf then .ok (if scaled > 0.0 then Bound.wideInt - 1 else -Bound.wideInt)
    else .ok (max (-Bound.wideInt) (min (Bound.wideInt - 1) (Dyadic.ofFloat scaled).toInt))

def amountFormat (function mark : String) (args : List Value) : Except Fault Value := do
  let a ← one function args
  return .text (Grouped.hundredths mark (← hundredthsOf function (← a.toReal)))

end Library

end PseudoVm
