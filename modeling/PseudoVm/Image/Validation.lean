import PseudoVm.Image.Basic
import PseudoVm.Image.Address
/-!
# Image.Validation: static checks of an image

Every index that a table or an instruction carries is checked against the table it points into, call targets
and virtual methods against the scope they name.  All problems are collected, those of the tables first and
then those of the code in order.

The checks look things up in the tables themselves, so they are partial functions: `none` would mean that a
table was indexed out of range.
-/
namespace PseudoVm

/-- The kinds of variable slot. -/
inductive SlotKind
  | global | local | param
  deriving DecidableEq, Repr

def SlotKind.name : SlotKind → String
  | .global => "global"
  | .local => "local"
  | .param => "param"

/-- What can be wrong with an image. -/
inductive ProblemKind
  | emptyProgram
  | badGlobalScope (index : Nat)
  | labelIndexOutOfBounds (index count : Nat)
  | labelOutOfBounds (name : String) (target len : Nat)
  | stringIndexOutOfBounds (index count : Nat)
  | classIndexOutOfBounds (index count : Nat)
  | scopeIndexOutOfBounds (index count : Nat)
  | slotOutOfBounds (kind : SlotKind) (index count : Nat)
  | callTargetNotBegin (name : String)
  | scopeMismatch (name : String)
  | arityMismatch (name : String) (expected found : Nat)
  | vtableSlotOutOfBounds (cls : String) (slot : Nat)
  deriving DecidableEq, Repr

def ProblemKind.message : ProblemKind → String
  | .emptyProgram => "program has no instructions"
  | .badGlobalScope index => s!"global scope {index} does not exist"
  | .labelIndexOutOfBounds index count => s!"label index {index} out of bounds (labels={count})"
  | .labelOutOfBounds name target len => s!"label '{name}' targets {target} which is out of bounds (len={len})"
  | .stringIndexOutOfBounds index count => s!"string index {index} out of bounds (strings={count})"
  | .classIndexOutOfBounds index count => s!"class index {index} out of bounds (classes={count})"
  | .scopeIndexOutOfBounds index count => s!"scope index {index} out of bounds (scopes={count})"
  | .slotOutOfBounds kind index count => kind.name ++ s!" slot {index} out of bounds (slots={count})"
  | .callTargetNotBegin name => s!"call target '{name}' is not a begin marker"
  | .scopeMismatch name => s!"call to '{name}' names a different scope than its begin"
  | .arityMismatch name expected found => s!"call to '{name}' passes {found} arguments, expected {expected}"
  | .vtableSlotOutOfBounds cls slot => s!"class {cls} has no virtual slot {slot}"

/-- A problem and the instruction it was found at; problems of tables are at offset 0. -/
structure Problem where
  offset : Nat
  kind : ProblemKind
  deriving DecidableEq, Repr

def Problem.message (p : Problem) : String := addressText p.offset ++ ": " ++ p.kind.message

namespace Validation

variable (image : Image)

/-- A slot of a frame with `count` of them. -/
def checkSlot (pc : Nat) (kind : SlotKind) (index count : Nat) : List Problem :=
  if index < count then [] else [⟨pc, .slotOutOfBounds kind index count⟩]

def checkLabel (pc : Nat) (label : LabelId) : List Problem :=
  if label < image.labels.size then [] else [⟨pc, .labelIndexOutOfBounds label image.labels.size⟩]

def checkScope (pc : Nat) (scope : ScopeId) : List Problem :=
  if scope < image.scopes.size then [] else [⟨pc, .scopeIndexOutOfBounds scope image.scopes.size⟩]

def checkClass (pc : Nat) (cls : ClassId) : List Problem :=
  if cls < image.classes.size then [] else [⟨pc, .classIndexOutOfBounds cls image.classes.size⟩]

/-- An entry point has to be the entry marker of the scope it is called with. -/
def checkMarker (pc : Nat) (name : String) (scope : ScopeId) (op : Op) : List Problem :=
  match op with
  | .begin marked => if marked = scope then [] else [⟨pc, .scopeMismatch name⟩]
  | _ => [⟨pc, .callTargetNotBegin name⟩]

/-- A call has to pass as many arguments as the scope has parameters; a virtual method passes unknown ones. -/
def checkArity (pc : Nat) (name : String) (scope : ScopeId) : Option Nat → Option (List Problem)
  | none => some []
  | some nargs =>
    (image.scopes[scope]?).map fun s =>
      if nargs = s.params.length then [] else [⟨pc, .arityMismatch name s.params.length nargs⟩]

/-- An entry point whose label and scope are numbers in range.  A label past the end of the code has been
reported with the labels. -/
def checkEntry (pc : Nat) (label : LabelId) (scope : ScopeId) (nargs : Option Nat) : Option (List Problem) := do
  let target ← image.labels[label]?
  match image.code[target.pc]? with
  | none => some []
  | some i => do
    let arity ← checkArity image pc target.name scope nargs
    return checkMarker pc target.name scope i.op ++ arity

/-- An entry point: the label's number first, then the scope's, then what the label points at. -/
def checkTarget (pc : Nat) (label : LabelId) (scope : ScopeId) (nargs : Option Nat) : Option (List Problem) :=
  match checkLabel image pc label with
  | [] =>
    match checkScope image pc scope with
    | [] => checkEntry image pc label scope nargs
    | problems => some problems
  | problems => some problems

/-- A virtual call: the class's number, then the slot in that class. -/
def checkVirtual (pc : Nat) (cls : ClassId) (slot : Nat) : Option (List Problem) :=
  match checkClass image pc cls with
  | [] =>
    (image.classes[cls]?).map fun c =>
      if slot < c.methods.size then [] else [⟨pc, .vtableSlotOutOfBounds c.name slot⟩]
  | problems => some problems

/-- The operands of an instruction inside the scope that encloses it. -/
def checkOp (scope : ScopeId) (pc : Nat) (op : Op) : Option (List Problem) :=
  match op with
  | .begin id => some (checkScope image pc id)
  | .litStr id =>
    some (if id < image.strings.size then [] else [⟨pc, .stringIndexOutOfBounds id image.strings.size⟩])
  | .globalRef slot | .globalVal slot => image.global?.map fun s => checkSlot pc .global slot s.locals.length
  | .localRef slot | .localVal slot => image.scopes[scope]?.map fun s => checkSlot pc .local slot s.locals.length
  | .paramRef slot | .paramVal slot | .paramPtr slot =>
    image.scopes[scope]?.map fun s => checkSlot pc .param slot s.params.length
  | .jump label | .jumpTrue label | .jumpFalse label => some (checkLabel image pc label)
  | .call label callee nargs => checkTarget image pc label callee (some nargs)
  | .objNew cls _ => some (checkClass image pc cls)
  | .vcall cls slot _ => checkVirtual image pc cls slot
  | _ => some []

/-- The scope that encloses the instructions after one: an entry marker opens its scope if that exists. -/
def enclosing (scope : ScopeId) (op : Op) : ScopeId :=
  match op with
  | .begin id => if id < image.scopes.size then id else scope
  | _ => scope

/-- The instructions from offset `pc` on. -/
def checkCode (scope : ScopeId) (pc : Nat) : List Instruction → Option (List Problem)
  | [] => some []
  | i :: rest => do
    let here ← checkOp image (enclosing image scope i.op) pc i.op
    let after ← checkCode (enclosing image scope i.op) (pc + 1) rest
    return here ++ after

def checkLabels : List Problem :=
  image.labels.toList.flatMap fun l =>
    if l.pc < image.code.size then [] else [⟨0, .labelOutOfBounds l.name l.pc image.code.size⟩]

def checkMethods : Option (List Problem) := do
  let found ← image.classes.toList.mapM fun c =>
    c.methods.toList.mapM fun m => checkTarget image 0 m.label m.scope none
  return found.flatten.flatten

end Validation

open Validation in
/-- **All problems of an image.**  Without a global scope nothing else can be checked. -/
def Image.validate (image : Image) : Option (List Problem) :=
  let empty : List Problem := if image.code.isEmpty then [⟨0, .emptyProgram⟩] else []
  if image.globalScope < image.scopes.size then do
    let methods ← checkMethods image
    let code ← checkCode image image.globalScope 0 image.code.toList
    return empty ++ checkLabels image ++ methods ++ code
  else some (empty ++ [⟨0, .badGlobalScope image.globalScope⟩])

/-- An image without problems. -/
def Image.isValid (image : Image) : Bool := image.validate == some []

end PseudoVm
