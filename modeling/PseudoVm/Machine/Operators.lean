import PseudoVm.Image.Basic
import PseudoVm.Number.Dyadic
import PseudoVm.Number.Power
import PseudoVm.Value.Fault
/-!
# Machine.Operators: operators on values

Integers wrap around at 64 bits, reals follow IEEE 754, strings and characters compare by bytes.  An operator
that a type does not have is a fault of the image.
-/
namespace PseudoVm

namespace Operators

def undefined {α : Type} (op : BinaryOp) (type : String) : Except Fault α :=
  .error (.badInstruction (.binaryUndefined op.name type))

/-- The comparison that an operator makes of an order. -/
def holds? : BinaryOp → Option (Ordering → Bool)
  | .eq => some (· == .eq)
  | .neq => some (· != .eq)
  | .lt => some (· == .lt)
  | .lte => some (· != .gt)
  | .gt => some (· == .gt)
  | .gte => some (· != .lt)
  | _ => none

/-- Compares two values by their order. -/
def compared (op : BinaryOp) (order : Ordering) (type : String) : Except Fault Value :=
  match holds? op with
  | some holds => .ok (.bool (holds order))
  | none => undefined op type

/-- The order of two integers. -/
def intOrder (a b : Int64) : Ordering := if a < b then .lt else if a = b then .eq else .gt

/-- The order of two bytes. -/
def byteOrder (a b : UInt8) : Ordering := if a < b then .lt else if a = b then .eq else .gt

/-- The order of two strings: by the first byte that differs, else the shorter first. -/
def bytesOrder : Bytes → Bytes → Ordering
  | [], [] => .eq
  | [], _ :: _ => .lt
  | _ :: _, [] => .gt
  | a :: as, b :: bs =>
    match byteOrder a b with
    | .eq => bytesOrder as bs
    | order => order

def ints (op : BinaryOp) (a b : Int64) : Except Fault Value :=
  match op with
  | .add => .ok (.int (a + b))
  | .sub => .ok (.int (a - b))
  | .mul => .ok (.int (a * b))
  | .div => if b = 0 then .error .divideByZero else .ok (.int (a / b))
  | .mod => if b = 0 then .error .divideByZero else .ok (.int (a % b))
  | .exp => .ok (.int (intPower a b))
  | _ => compared op (intOrder a b) "int"

def reals (op : BinaryOp) (a b : Float) : Except Fault Value :=
  match op with
  | .add => .ok (.real (a + b))
  | .sub => .ok (.real (a - b))
  | .mul => .ok (.real (a * b))
  | .div => .ok (.real (a / b))
  | .exp => .ok (.real (Float.pow a b))
  | .mod => .ok (.real (realRemainder a b))
  | .eq => .ok (.bool (a == b))
  | .neq => .ok (.bool (a != b))
  | .lt => .ok (.bool (a < b))
  | .lte => .ok (.bool (a ≤ b))
  | .gt => .ok (.bool (b < a))
  | .gte => .ok (.bool (b ≤ a))
  | .and | .or => undefined op "real"

def strings (op : BinaryOp) (a b : Bytes) : Except Fault Value :=
  match op with
  | .add => .ok (.str (a ++ b))
  | _ => compared op (bytesOrder a b) "str"

def chars (op : BinaryOp) (a b : UInt8) : Except Fault Value := compared op (byteOrder a b) "char"

def bools (op : BinaryOp) (a b : Bool) : Except Fault Value :=
  match op with
  | .eq => .ok (.bool (a == b))
  | .neq => .ok (.bool (a != b))
  | .and => .ok (.bool (a && b))
  | .or => .ok (.bool (a || b))
  | _ => undefined op "bool"

/-- Whether a counted loop goes on: up to `stop`, or down to it if the step is negative. -/
def continuesInt (val stop step : Int64) : Bool := if 0 ≤ step then val ≤ stop else stop ≤ val

/-- Whether a counted loop over reals goes on; a step that is no number counts as negative. -/
def continuesReal (val stop step : Float) : Bool := if 0.0 ≤ step then val ≤ stop else stop ≤ val

/-- Whether a loop goes on, with the operands checked from left to right. -/
def continues (kind : Counter) (val stop step : Value) : Except Fault Bool :=
  match kind with
  | .int => do return continuesInt (← val.asInt) (← stop.asInt) (← step.asInt)
  | .real => do return continuesReal (← val.asReal) (← stop.asReal) (← step.asReal)

def advance (kind : Counter) (current step : Value) : Except Fault Value :=
  match kind with
  | .int => do return .int ((← current.asInt) + (← step.asInt))
  | .real => do return .real ((← current.asReal) + (← step.asReal))

def offset (index : Int64) (len : Nat) : Except Fault Nat :=
  if index < 0 ∨ len ≤ index.toNatClampNeg then .error (.indexOutOfRange index.toInt len)
  else .ok index.toNatClampNeg

end Operators

end PseudoVm
