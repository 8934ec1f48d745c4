import PseudoVm.Image.Basic
import PseudoVm.Json.Parser
import PseudoVm.Json.Printer
/-!
# Image.Codec: images as JSON

An image file holds an image and the version of its format.  `encode` and `decode?` go between images and JSON
values: a structure is an object of its fields (reading also takes a list of them in order), an instruction is
its name, alone or with its operands.  A real that is no number is encoded as `null`, which no reader takes
for a real.
-/
namespace PseudoVm

namespace Codec

/-- A number from 0 to `2 ^ 64 - 1`. -/
def nat? : Json → Option Nat
  | .int n => if 0 ≤ n ∧ n < Bound.word then some n.toNat else none
  | _ => none

def int? : Json → Option Int64
  | .int n => if -Bound.int ≤ n ∧ n < Bound.int then some (Int64.ofInt n) else none
  | _ => none

def byte? : Json → Option UInt8
  | .int n => if 0 ≤ n ∧ n < 256 then some (UInt8.ofNat n.toNat) else none
  | _ => none

/-- A real, which may be written as a whole number. -/
def real? : Json → Option Float
  | .int n => some (Float.ofInt n)
  | .real x => if x.isNaN || x.isInf then none else some x
  | _ => none

def bool? : Json → Option Bool
  | .bool b => some b
  | _ => none

def text? : Json → Option String
  | .str s => some s
  | _ => none

def list? {α : Type} (item? : Json → Option α) : Json → Option (List α)
  | .arr items => items.mapM item?
  | _ => none

def need {α : Type} (item? : Json → Option α) : Option Json → Option α
  | some v => item? v
  | none => none

def orElse {α : Type} (item? : Json → Option α) (default : α) : Option Json → Option α
  | some v => item? v
  | none => some default

def ofNat (n : Nat) : Json := .int n

/-- A real, or `null`. -/
def ofReal (x : Float) : Json := if x.isNaN || x.isInf then .null else .real x

def ofTexts (texts : List String) : Json := .arr (texts.map .str)

end Codec

open Codec

def BinaryOp.encode : BinaryOp → Json
  | .add => .str "Add"
  | .sub => .str "Sub"
  | .mul => .str "Mul"
  | .div => .str "Div"
  | .exp => .str "Exp"
  | .mod => .str "Mod"
  | .eq => .str "Eq"
  | .neq => .str "Neq"
  | .lt => .str "Lt"
  | .lte => .str "Lte"
  | .gt => .str "Gt"
  | .gte => .str "Gte"
  | .and => .str "And"
  | .or => .str "Or"

namespace Codec

/-- A case without data: its name alone, or with `null`. -/
def plain? (v : Json) : Option String :=
  match v.case? with
  | some (name, none) => some name
  | some (name, some .null) => some name
  | _ => none

def oneOf? {α : Type} (cases : List (String × α)) (v : Json) : Option α := (plain? v).bind fun name => cases.lookup name

end Codec

def BinaryOp.decode? : Json → Option BinaryOp := oneOf?
  [("Add", .add), ("Sub", .sub), ("Mul", .mul), ("Div", .div), ("Exp", .exp), ("Mod", .mod), ("Eq", .eq),
   ("Neq", .neq), ("Lt", .lt), ("Lte", .lte), ("Gt", .gt), ("Gte", .gte), ("And", .and), ("Or", .or)]

def UnaryOp.encode : UnaryOp → Json
  | .neg => .str "Neg"
  | .not => .str "Not"

def UnaryOp.decode? : Json → Option UnaryOp := oneOf? [("Neg", .neg), ("Not", .not)]

def Container.encode : Container → Json
  | .string => .str "String"
  | .array => .str "Array"
  | .object => .str "Object"

def Container.decode? : Json → Option Container :=
  oneOf? [("String", .string), ("Array", .array), ("Object", .object)]

/-- The name of a loop variable's type in an image. -/
def Counter.encode : Counter → Json
  | .int => .str "Int"
  | .real => .str "Real"

def Counter.decode? : Json → Option Counter := oneOf? [("Int", .int), ("Real", .real)]

/-- An instruction: its name, alone or with its operands. -/
def Op.encode : Op → Json
  | .litInt n => .obj [("LitInt", .int n.toInt)]
  | .litReal x => .obj [("LitReal", ofReal x)]
  | .litBool b => .obj [("LitBool", .bool b)]
  | .litChar c => .obj [("LitChar", ofNat c.toNat)]
  | .litStr id => .obj [("LitStr", ofNat id)]
  | .globalRef slot => .obj [("GlobalRef", ofNat slot)]
  | .globalVal slot => .obj [("GlobalVal", ofNat slot)]
  | .localRef slot => .obj [("LocalRef", ofNat slot)]
  | .localVal slot => .obj [("LocalVal", ofNat slot)]
  | .paramRef slot => .obj [("ParamRef", ofNat slot)]
  | .paramVal slot => .obj [("ParamVal", ofNat slot)]
  | .paramPtr slot => .obj [("ParamPtr", ofNat slot)]
  | .fieldRef index => .obj [("FieldRef", ofNat index)]
  | .fieldVal index => .obj [("FieldVal", ofNat index)]
  | .store => .str "Store"
  | .storeChar => .str "StoreChar"
  | .deref => .str "Deref"
  | .binInt op => .obj [("BinOpInt", op.encode)]
  | .binReal op => .obj [("BinOpReal", op.encode)]
  | .binStr op => .obj [("BinOpStr", op.encode)]
  | .binChar op => .obj [("BinOpChar", op.encode)]
  | .binBool op => .obj [("BinOpBool", op.encode)]
  | .unInt op => .obj [("UnaryOpInt", op.encode)]
  | .unReal op => .obj [("UnaryOpReal", op.encode)]
  | .unBool op => .obj [("UnaryOpBool", op.encode)]
  | .intToReal => .str "IntToReal"
  | .realToInt => .str "RealToInt"
  | .incrInt delta => .obj [("IncrInt", .int delta.toInt)]
  | .incrReal delta => .obj [("IncrReal", ofReal delta)]
  | .forInit kind => .obj [("ForInit", kind.encode)]
  | .forStep kind => .obj [("ForStep", kind.encode)]
  | .offsetRef kind => .obj [("OffsetRef", kind.encode)]
  | .offsetVal kind => .obj [("OffsetVal", kind.encode)]
  | .arrayNew size => .obj [("ArrayNew", .obj [("size", ofNat size)])]
  | .arrayClone dims => .obj [("ArrayClone", .obj [("dims", ofNat dims)])]
  | .arrayLen => .str "ArrayLen"
  | .objNew cls nfields => .obj [("ObjNew", .obj [("class", ofNat cls), ("nfields", ofNat nfields)])]
  | .jump label => .obj [("Jump", ofNat label)]
  | .jumpTrue label => .obj [("JumpTrue", ofNat label)]
  | .jumpFalse label => .obj [("JumpFalse", ofNat label)]
  | .begin scope => .obj [("Begin", .obj [("scope", ofNat scope)])]
  | .finish => .str "End"
  | .call label scope nargs =>
    .obj [("Call", .obj [("label", ofNat label), ("scope", ofNat scope), ("nargs", ofNat nargs)])]
  | .vcall cls slot nargs =>
    .obj [("VCall", .obj [("class", ofNat cls), ("slot", ofNat slot), ("nargs", ofNat nargs)])]
  | .ret nval => .obj [("Return", .obj [("nval", ofNat nval)])]
  | .halt nval => .obj [("Halt", .obj [("nval", ofNat nval)])]
  | .libCall index nargs => .obj [("LibCall", .obj [("index", ofNat index), ("nargs", ofNat nargs)])]
  | .dup => .str "Dup"
  | .pop => .str "Pop"

namespace Codec

def operands? (names : List String) (v : Json) : Option (List Nat) := do
  let fields ← v.record? names
  fields.mapM (need nat?)

/-- An instruction without operands. -/
def plainOp? : String → Option Op
  | "Store" => some .store
  | "StoreChar" => some .storeChar
  | "Deref" => some .deref
  | "IntToReal" => some .intToReal
  | "RealToInt" => some .realToInt
  | "ArrayLen" => some .arrayLen
  | "End" => some .finish
  | "Dup" => some .dup
  | "Pop" => some .pop
  | _ => none

def dataOp? (name : String) (data : Json) : Option Op :=
  match name with
  | "LitInt" => (int? data).map .litInt
  | "LitReal" => (real? data).map .litReal
  | "LitBool" => (bool? data).map .litBool
  | "LitChar" => (byte? data).map .litChar
  | "LitStr" => (nat? data).map .litStr
  | "GlobalRef" => (nat? data).map .globalRef
  | "GlobalVal" => (nat? data).map .globalVal
  | "LocalRef" => (nat? data).map .localRef
  | "LocalVal" => (nat? data).map .localVal
  | "ParamRef" => (nat? data).map .paramRef
  | "ParamVal" => (nat? data).map .paramVal
  | "ParamPtr" => (nat? data).map .paramPtr
  | "FieldRef" => (nat? data).map .fieldRef
  | "FieldVal" => (nat? data).map .fieldVal
  | "BinOpInt" => (BinaryOp.decode? data).map .binInt
  | "BinOpReal" => (BinaryOp.decode? data).map .binReal
  | "BinOpStr" => (BinaryOp.decode? data).map .binStr
  | "BinOpChar" => (BinaryOp.decode? data).map .binChar
  | "BinOpBool" => (BinaryOp.decode? data).map .binBool
  | "UnaryOpInt" => (UnaryOp.decode? data).map .unInt
  | "UnaryOpReal" => (UnaryOp.decode? data).map .unReal
  | "UnaryOpBool" => (UnaryOp.decode? data).map .unBool
  | "IncrInt" => (int? data).map .incrInt
  | "IncrReal" => (real? data).map .incrReal
  | "ForInit" => (Counter.decode? data).map .forInit
  | "ForStep" => (Counter.decode? data).map .forStep
  | "OffsetRef" => (Container.decode? data).map .offsetRef
  | "OffsetVal" => (Container.decode? data).map .offsetVal
  | "Jump" => (nat? data).map .jump
  | "JumpTrue" => (nat? data).map .jumpTrue
  | "JumpFalse" => (nat? data).map .jumpFalse
  | "ArrayNew" => match operands? ["size"] data with
    | some [size] => some (.arrayNew size)
    | _ => none
  | "ArrayClone" => match operands? ["dims"] data with
    | some [dims] => some (.arrayClone dims)
    | _ => none
  | "ObjNew" => match operands? ["class", "nfields"] data with
    | some [cls, nfields] => some (.objNew cls nfields)
    | _ => none
  | "Begin" => match operands? ["scope"] data with
    | some [scope] => some (.begin scope)
    | _ => none
  | "Call" => match operands? ["label", "scope", "nargs"] data with
    | some [label, scope, nargs] => some (.call label scope nargs)
    | _ => none
  | "VCall" => match operands? ["class", "slot", "nargs"] data with
    | some [cls, slot, nargs] => some (.vcall cls slot nargs)
    | _ => none
  | "Return" => match operands? ["nval"] data with
    | some [nval] => some (.ret nval)
    | _ => none
  | "Halt" => match operands? ["nval"] data with
    | some [nval] => some (.halt nval)
    | _ => none
  | "LibCall" => match operands? ["index", "nargs"] data with
    | some [index, nargs] => some (.libCall index nargs)
    | _ => none
  | _ => none

end Codec

def Op.decode? (v : Json) : Option Op :=
  match v.case? with
  | some (name, none) => plainOp? name
  | some (name, some .null) => plainOp? name
  | some (name, some data) => dataOp? name data
  | none => none

def SourcePos.encode (p : SourcePos) : Json := .obj [("line", ofNat p.line), ("column", ofNat p.column)]

def SourcePos.decode? (v : Json) : Option SourcePos :=
  match v.record? ["line", "column"] with
  | some [line, column] => do return ⟨← need nat? line, ← need nat? column⟩
  | _ => none

def Instruction.encode (i : Instruction) : Json := .obj [("pos", i.pos.encode), ("op", i.op.encode)]

def Instruction.decode? (v : Json) : Option Instruction :=
  match v.record? ["pos", "op"] with
  | some [pos, op] => do return ⟨← need SourcePos.decode? pos, ← need Op.decode? op⟩
  | _ => none

def Label.encode (l : Label) : Json := .obj [("name", .str l.name), ("pc", ofNat l.pc)]

def Label.decode? (v : Json) : Option Label :=
  match v.record? ["name", "pc"] with
  | some [name, pc] => do return ⟨← need text? name, ← need nat? pc⟩
  | _ => none

def Method.encode (m : Method) : Json := .obj [("label", ofNat m.label), ("scope", ofNat m.scope)]

def Method.decode? (v : Json) : Option Method :=
  match v.record? ["label", "scope"] with
  | some [label, scope] => do return ⟨← need nat? label, ← need nat? scope⟩
  | _ => none

def Class.encode (c : Class) : Json :=
  .obj [("name", .str c.name), ("fields", ofTexts c.fields), ("vtable", .arr (c.methods.toList.map Method.encode))]

/-- The class that a JSON value is; fields and methods may be left out. -/
def Class.decode? (v : Json) : Option Class :=
  match v.record? ["name", "fields", "vtable"] with
  | some [name, fields, vtable] => do
    return ⟨← need text? name, ← orElse (list? text?) [] fields, (← orElse (list? Method.decode?) [] vtable).toArray⟩
  | _ => none

def Scope.encode (s : Scope) : Json :=
  .obj [("name", .str s.name), ("is_global", .bool s.isGlobal), ("params", ofTexts s.params),
    ("locals", ofTexts s.locals)]

/-- The scope that a JSON value is; everything but the name may be left out. -/
def Scope.decode? (v : Json) : Option Scope :=
  match v.record? ["name", "is_global", "params", "locals"] with
  | some [name, isGlobal, params, locals] => do
    return ⟨← need text? name, ← orElse bool? false isGlobal, ← orElse (list? text?) [] params,
      ← orElse (list? text?) [] locals⟩
  | _ => none

namespace Image

/-- An image without the version of its format. -/
def encode (image : Image) : Json :=
  .obj [("code", .arr (image.code.toList.map Instruction.encode)),
    ("labels", .arr (image.labels.toList.map Label.encode)),
    ("strings", ofTexts image.strings.toList),
    ("classes", .arr (image.classes.toList.map Class.encode)),
    ("scopes", .arr (image.scopes.toList.map Scope.encode)),
    ("global_scope", ofNat image.globalScope)]

/-- The image that a JSON value is; strings and classes may be left out. -/
def decode? (v : Json) : Option Image :=
  match v.record? ["code", "labels", "strings", "classes", "scopes", "global_scope"] with
  | some [code, labels, strings, classes, scopes, globalScope] => do
    let code ← need (list? Instruction.decode?) code
    let labels ← need (list? Label.decode?) labels
    let strings ← orElse (list? text?) [] strings
    let classes ← orElse (list? Class.decode?) [] classes
    let scopes ← need (list? Scope.decode?) scopes
    let globalScope ← need nat? globalScope
    return ⟨code.toArray, labels.toArray, strings.toArray, classes.toArray, scopes.toArray, globalScope⟩
  | _ => none

def formatVersion : Nat := 1

/-- Why a text is no image of this format. -/
inductive ReadError
  | malformed
  | versionMismatch (found : Nat)
  deriving DecidableEq, Repr

def ReadError.message : ReadError → String
  | .malformed => "malformed image"
  | .versionMismatch found =>
    "image version " ++ toString found ++ " is not supported (expected " ++ toString formatVersion ++ ")"

def toEnvelope (image : Image) : Json := .obj [("version", ofNat formatVersion), ("assembly", image.encode)]

/-- The version and the image that a JSON value holds. -/
def envelope? (v : Json) : Option (Nat × Image) :=
  match v.record? ["version", "assembly"] with
  | some [version, assembly] => do
    let version ← need nat? version
    guard (version < Bound.halfWord)
    return (version, ← need decode? assembly)
  | _ => none

/-- The image in an envelope.  The version counts only once the whole envelope has been understood. -/
def ofEnvelope (v : Json) : Except ReadError Image :=
  match envelope? v with
  | none => .error .malformed
  | some (version, image) => if version = formatVersion then .ok image else .error (.versionMismatch version)

def write (image : Image) : String := image.toEnvelope.pretty

def read (text : String) : Except ReadError Image :=
  match Json.parse? text with
  | none => .error .malformed
  | some v => ofEnvelope v

end Image

end PseudoVm
