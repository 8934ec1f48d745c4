import PseudoVm.Value.Basic
/-!
# Value.Fault: why an instruction fails

Every failure of an instruction is one of the causes of `Fault`.  Two further things can stop an instruction
for good, and they are no faults a program can be shown: a table of the image indexed out of range, and an
array entered again while it is being traversed.
-/
namespace PseudoVm

/-- Which kind of variable was read too early. -/
inductive VarKind
  | global | local | param | field
  deriving DecidableEq, Repr

def VarKind.text : VarKind → String
  | .global => "global variable"
  | .local => "local"
  | .param => "param variable"
  | .field => "field"

/-- What an image's generator guarantees and an instruction found broken. -/
inductive Internal
  | alreadyFinished
  | stringNotFound (id : Nat)
  | scopeNotFound (id : Nat)
  | frameNotFound (id : Nat)
  | noFrame
  | deadFrame
  | slotOutOfRange (slot : Nat)
  | paramOutOfRange (slot : Nat)
  | fieldOutOfRange (index : Nat)
  | noValue
  deriving DecidableEq, Repr

def Internal.text : Internal → String
  | .alreadyFinished => "execution already finished"
  | .stringNotFound id => s!"string {id} not found"
  | .scopeNotFound id => s!"scope {id} not found"
  | .frameNotFound id => s!"frame {id} not found"
  | .noFrame => "no active frame"
  | .deadFrame => "reference to a frame that has returned"
  | .slotOutOfRange slot => s!"slot {slot} out of range"
  | .paramOutOfRange slot => s!"param {slot} out of range"
  | .fieldOutOfRange index => s!"field {index} out of range"
  | .noValue => "expression produced no value"

/-- Instructions that cannot be executed in their form. -/
inductive BadInstruction
  | pastEnd (pc : Nat)
  | unaryUndefined (op : String)
  | binaryUndefined (op type : String)
  | stringElement
  | noVirtualSlot (slot : Nat)
  deriving DecidableEq, Repr

def BadInstruction.text : BadInstruction → String
  | .pastEnd pc => s!"pc {pc} is past the end of the code"
  | .unaryUndefined op => s!"{op} is not defined for this operand type"
  | .binaryUndefined op type => s!"{op}_{type} is not a valid operator"
  | .stringElement => "string characters are written with StoreChar"
  | .noVirtualSlot slot => s!"no virtual slot {slot}"

/-- Why an instruction fails. -/
inductive Fault
  | typeMismatch (expected found : TypeName)
  | readBeforeAssignment (kind : VarKind) (name : String)
  | internal (cause : Internal)
  | stackOverflow
  | instructionLimit
  | indexOutOfRange (index : Int) (len : Nat)
  | divideByZero
  | returnArity (expected found : Nat)
  | evalStackUnderflow
  | unknownLibFunction (index : Nat)
  | libArgument (function message : String)
  | fileNotOpen
  | io (message : String)
  | badInstruction (cause : BadInstruction)
  deriving DecidableEq, Repr

namespace Fault

def message : Fault → String
  | .typeMismatch expected found => "type mismatch: expected " ++ expected.text ++ ", found " ++ found.text
  | .readBeforeAssignment kind name => kind.text ++ " " ++ name ++ " read before assignment"
  | .internal cause => "internal error: " ++ cause.text
  | .stackOverflow => "stack overflow"
  | .instructionLimit => "infinite loop detected"
  | .indexOutOfRange index len => s!"index {index} out of range [0, {len})"
  | .divideByZero => "integer divide by zero"
  | .returnArity expected found => s!"expected {expected} value(s) on the evaluation stack, found {found}"
  | .evalStackUnderflow => "evaluation stack underflow"
  | .unknownLibFunction index => s!"unknown library function #{index}"
  | .libArgument function message => function ++ ": " ++ message
  | .fileNotOpen => "file is not open"
  | .io message => "I/O error: " ++ message
  | .badInstruction cause => "bad instruction: " ++ cause.text

/-- Whether a fault shows a broken image rather than a mistake of the program. -/
def isInternal : Fault → Bool
  | .internal _ | .evalStackUnderflow | .returnArity _ _ | .badInstruction _ | .unknownLibFunction _ => true
  | _ => false

def mismatch (expected : TypeName) (found : Value) : Fault := .typeMismatch expected found.typeName

end Fault

/-- What ends an instruction without a fault to show. -/
inductive Abort
  /-- A label, scope or class that the image does not have was looked up. -/
  | badIndex
  /-- A traversal of nested arrays came back to an array it was inside of; it never ends. -/
  | deadlock
  /-- Storage was asked for that is larger than a block can be. -/
  | noRoom
  deriving DecidableEq, Repr

/-- What ends an instruction early. -/
inductive Stop
  | fault (f : Fault)
  | abort (a : Abort)
  deriving DecidableEq, Repr

namespace Value

def asInt : Value → Except Fault Int64
  | .int n => .ok n
  | v => .error (.mismatch .integer v)

def asReal : Value → Except Fault Float
  | .real x => .ok x
  | v => .error (.mismatch .real v)

def asBool : Value → Except Fault Bool
  | .bool b => .ok b
  | v => .error (.mismatch .boolean v)

def asChar : Value → Except Fault UInt8
  | .char c => .ok c
  | v => .error (.mismatch .character v)

def asStr : Value → Except Fault Bytes
  | .str s => .ok s
  | v => .error (.mismatch .string v)

def asArray : Value → Except Fault ArrayId
  | .array id => .ok id
  | v => .error (.mismatch .array v)

/-- The class and identity of the object that a value names. -/
def asObject : Value → Except Fault (Nat × ObjectId)
  | .object cls id => .ok (cls, id)
  | v => .error (.mismatch .object v)

def asFile : Value → Except Fault FileId
  | .file id => .ok id
  | v => .error (.mismatch .file v)

def asReference : Value → Except Fault Reference
  | .ref r => .ok r
  | v => .error (.mismatch .reference v)

/-- The real that a value is or, for an integer, becomes. -/
def toReal : Value → Except Fault Float
  | .real x => .ok x
  | .int n => .ok n.toFloat
  | v => .error (.mismatch .real v)

end Value

end PseudoVm
