/-!
# Image.Basic: program images

An image is what a code generator hands to the machine: instructions with their source positions, a table of
labels, interned strings, classes with their virtual methods, and the frame shape of every scope.
Instructions refer to tables by index, and an index may be out of range; looking one up is partial.
-/
namespace PseudoVm

abbrev LabelId := Nat

abbrev ScopeId := Nat

abbrev ClassId := Nat

abbrev StringId := Nat

/-- A line and column of the pseudocode source, both counted from 1. -/
structure SourcePos where
  line : Nat
  column : Nat
  deriving DecidableEq, Repr, Inhabited

def SourcePos.unknown : SourcePos := ⟨0, 0⟩

/-- A position as `line:column`. -/
def SourcePos.text (p : SourcePos) : String := toString p.line ++ ":" ++ toString p.column

/-- Binary operators.  Which of them are defined depends on the type of the operands. -/
inductive BinaryOp
  | add | sub | mul | div | exp | mod
  | eq | neq | lt | lte | gt | gte
  | and | or
  deriving DecidableEq, Repr

def BinaryOp.name : BinaryOp → String
  | .add => "add"
  | .sub => "sub"
  | .mul => "mul"
  | .div => "div"
  | .exp => "exp"
  | .mod => "mod"
  | .eq => "eq"
  | .neq => "neq"
  | .lt => "lt"
  | .lte => "lte"
  | .gt => "gt"
  | .gte => "gte"
  | .and => "and"
  | .or => "or"

/-- Unary operators. -/
inductive UnaryOp
  | neg | not
  deriving DecidableEq, Repr

def UnaryOp.name : UnaryOp → String
  | .neg => "neg"
  | .not => "not"

/-- What an offset addresses. -/
inductive Container
  | string | array | object
  deriving DecidableEq, Repr

def Container.name : Container → String
  | .string => "str"
  | .array => "arr"
  | .object => "obj"

/-- The type of a counted loop's variable. -/
inductive Counter
  | int | real
  deriving DecidableEq, Repr

def Counter.name : Counter → String
  | .int => "int"
  | .real => "real"

/-- The instruction set.  Operands are described from the bottom of the stack to its top. -/
inductive Op
  | litInt (n : Int64)
  | litReal (x : Float)
  | litBool (b : Bool)
  | litChar (c : UInt8)
  | litStr (id : StringId)
  | globalRef (slot : Nat)
  | globalVal (slot : Nat)
  | localRef (slot : Nat)
  | localVal (slot : Nat)
  | paramRef (slot : Nat)
  | paramVal (slot : Nat)
  /-- The value behind the reference that a parameter holds. -/
  | paramPtr (slot : Nat)
  /-- `[object]`: a reference to one of its fields. -/
  | fieldRef (index : Nat)
  /-- `[object]`: the value of one of its fields. -/
  | fieldVal (index : Nat)
  /-- `[value, reference]`. -/
  | store
  /-- `[character, reference to a string, index]`: replaces one character. -/
  | storeChar
  /-- `[reference]`: the value behind it. -/
  | deref
  | binInt (op : BinaryOp)
  | binReal (op : BinaryOp)
  | binStr (op : BinaryOp)
  | binChar (op : BinaryOp)
  | binBool (op : BinaryOp)
  | unInt (op : UnaryOp)
  | unReal (op : UnaryOp)
  | unBool (op : UnaryOp)
  | intToReal
  | realToInt
  /-- `[reference]`: adds a constant in place. -/
  | incrInt (delta : Int64)
  | incrReal (delta : Float)
  /-- `[reference, start, stop, step]`: whether the loop is entered. -/
  | forInit (kind : Counter)
  /-- `[reference, stop, step]`: whether the loop goes on. -/
  | forStep (kind : Counter)
  /-- `[container, index]`: a reference to an element. -/
  | offsetRef (kind : Container)
  /-- `[container, index]`: an element. -/
  | offsetVal (kind : Container)
  /-- `[v0 … vN-1]`: an array of them. -/
  | arrayNew (size : Nat)
  /-- `[array]`: a copy that shares nothing down to `dims` levels. -/
  | arrayClone (dims : Nat)
  /-- `[array]`: its length. -/
  | arrayLen
  | objNew (cls : ClassId) (nfields : Nat)
  | jump (label : LabelId)
  | jumpTrue (label : LabelId)
  | jumpFalse (label : LabelId)
  /-- Entry marker of a scope. -/
  | begin (scope : ScopeId)
  /-- Falls off the end of a scope; nothing may be left on its stack. -/
  | finish
  /-- `[arg0 … argN-1]`. -/
  | call (label : LabelId) (scope : ScopeId) (nargs : Nat)
  /-- `[receiver, arg1 … argN-1]`: the receiver's class selects the method. -/
  | vcall (cls : ClassId) (slot : Nat) (nargs : Nat)
  | ret (nval : Nat)
  /-- Stops the whole program and keeps `nval` values as its result. -/
  | halt (nval : Nat)
  | libCall (index : Nat) (nargs : Nat)
  | dup
  | pop
  deriving BEq, Repr

namespace Op

def jumpTarget : Op → Option LabelId
  | .jump l | .jumpTrue l | .jumpFalse l => some l
  | .call l _ _ => some l
  | _ => none

def mnemonic : Op → String
  | .litInt _ | .litReal _ | .litBool _ | .litChar _ | .litStr _ => "literal"
  | .globalRef _ => "&global"
  | .globalVal _ => "global"
  | .localRef _ => "&local"
  | .localVal _ => "local"
  | .paramRef _ => "&param"
  | .paramVal _ => "param"
  | .paramPtr _ => "*param"
  | .fieldRef _ => "&field"
  | .fieldVal _ => "field"
  | .store => "store"
  | .storeChar => "store char"
  | .deref => "deref"
  | .binInt _ | .binReal _ | .binStr _ | .binChar _ | .binBool _ => "binop"
  | .unInt _ | .unReal _ | .unBool _ => "unop"
  | .intToReal => "conv int real"
  | .realToInt => "conv real int"
  | .incrInt _ => "incr int"
  | .incrReal _ => "incr real"
  | .forInit _ => "for init"
  | .forStep _ => "for step"
  | .offsetRef _ => "&offset"
  | .offsetVal _ => "offset"
  | .arrayNew _ => "array new"
  | .arrayClone _ => "array clone"
  | .arrayLen => "array len"
  | .objNew _ _ => "object new"
  | .jump _ => "jump"
  | .jumpTrue _ => "jump true"
  | .jumpFalse _ => "jump false"
  | .begin _ => "begin"
  | .finish => "end"
  | .call _ _ _ => "call"
  | .vcall _ _ _ => "vcall"
  | .ret _ => "return"
  | .halt _ => "halt"
  | .libCall _ _ => "libcall"
  | .dup => "dup"
  | .pop => "pop"

end Op

/-- An instruction and the source position it was generated from. -/
structure Instruction where
  pos : SourcePos
  op : Op
  deriving BEq, Repr

/-- A named instruction offset. -/
structure Label where
  name : String
  pc : Nat
  deriving DecidableEq, Repr

/-- The frame shape of a scope: names of its parameters and locals, in slot order. -/
structure Scope where
  name : String
  isGlobal : Bool
  params : List String
  locals : List String
  deriving DecidableEq, Repr

/-- The scope of a whole program. -/
def Scope.global (globals : List String) : Scope := ⟨"global", true, [], globals⟩

def Scope.callable (name : String) (params locals : List String) : Scope := ⟨name, false, params, locals⟩

/-- A virtual method: its entry point and its frame shape. -/
structure Method where
  label : LabelId
  scope : ScopeId
  deriving DecidableEq, Repr

/-- A class: names of its fields, and its virtual methods by slot. -/
structure Class where
  name : String
  fields : List String
  methods : Array Method
  deriving DecidableEq, Repr

/-- A complete program image. -/
structure Image where
  code : Array Instruction
  labels : Array Label
  strings : Array String
  classes : Array Class
  scopes : Array Scope
  globalScope : ScopeId
  deriving BEq, Repr

namespace Image

/-- The frame shape of the whole program. -/
def global? (image : Image) : Option Scope := image.scopes[image.globalScope]?

def labelPc? (image : Image) (id : LabelId) : Option Nat := image.labels[id]?.map (·.pc)

/-- The first label of a name. -/
def findLabel (image : Image) (name : String) : Option LabelId := image.labels.findIdx? (·.name == name)

def maxLine (image : Image) : Nat := image.code.foldl (fun top i => max top i.pos.line) 0

end Image

end PseudoVm
