import PseudoVm.Image.Address
import PseudoVm.Image.Basic
import PseudoVm.Library.Basic
import PseudoVm.Number.Bounds
import PseudoVm.Number.RealText
import PseudoVm.Text.Escaped
import PseudoVm.Text.Lines
/-!
# Image.Listing: an image as readable assembly

One line an instruction, with its address, its source position and its operands by name; then the tables.
Names come from the tables, so a listing exists only if every index that has to be looked up is in range.  Nor does it
exist if an operand asks for more text than there can be.
-/
namespace PseudoVm

namespace Listing

def padRight (width : Nat) (s : String) : String :=
  s ++ String.ofList (List.replicate (width - s.length) ' ')

def slotName (names : List String) (slot : Nat) : String := names[slot]?.getD ""

/-- A variable instruction with its slot and the slot's name. -/
def named (op : Op) (slot : Nat) (name : String) : String :=
  op.mnemonic ++ "[" ++ toString slot ++ "] #" ++ name

/-- A jump with the address and name of its label. -/
def jump (image : Image) (op : Op) (label : LabelId) : Option String :=
  image.labels[label]?.map fun l => op.mnemonic ++ " " ++ addressText l.pc ++ " :" ++ l.name

/-- The name of the method in a slot, or a question mark. -/
def methodName (image : Image) (c : Class) (slot : Nat) : Option String :=
  match c.methods[slot]? with
  | none => some "?"
  | some m => image.labels[m.label]?.map (·.name)

def leaving (op : Op) (nval : Nat) : String :=
  if nval = 0 then op.mnemonic else op.mnemonic ++ "(" ++ toString nval ++ ")"

/-- As many pairs of brackets as an array has dimensions; `none` if that is more than a text can hold. -/
def brackets (dims : Nat) : Option String :=
  if Bound.block < dims * 2 then none else some (String.join (List.replicate dims "[]"))

def instruction (image : Image) (scope : Scope) (op : Op) : Option String :=
  match op with
  | .litInt n => some ("literal int " ++ Numeral.intText n)
  | .litReal x => some ("literal real " ++ realText x)
  | .litBool b => some ("literal bool " ++ toString b)
  | .litChar c => some ("literal char " ++ escapedChar (Char.ofNat c.toNat))
  | .litStr id => some ("literal str [" ++ toString id ++ "] " ++ escapedText (image.strings[id]?.getD ""))
  | .globalRef slot | .globalVal slot => image.global?.map fun g => named op slot (slotName g.locals slot)
  | .localRef slot | .localVal slot => some (named op slot (slotName scope.locals slot))
  | .paramRef slot | .paramVal slot | .paramPtr slot => some (named op slot (slotName scope.params slot))
  | .fieldRef index | .fieldVal index => some (op.mnemonic ++ "[" ++ toString index ++ "]")
  | .binInt b => some (b.name ++ "_int")
  | .binReal b => some (b.name ++ "_real")
  | .binStr b => some (b.name ++ "_str")
  | .binChar b => some (b.name ++ "_char")
  | .binBool b => some (b.name ++ "_bool")
  | .unInt u => some (u.name ++ " int")
  | .unReal u => some (u.name ++ " real")
  | .unBool u => some u.name
  | .incrInt delta => some ("incr int " ++ Numeral.intText delta)
  | .incrReal delta => some ("incr real " ++ realText delta)
  | .forInit k | .forStep k => some (op.mnemonic ++ " " ++ k.name)
  | .offsetRef k | .offsetVal k => some (op.mnemonic ++ " " ++ k.name)
  | .arrayNew size => some ("array new [" ++ toString size ++ "]")
  | .arrayClone dims => (brackets dims).map ("array clone " ++ ·)
  | .objNew cls _ => some ("object new " ++ ((image.classes[cls]?.map (·.name)).getD "?"))
  | .jump label | .jumpTrue label | .jumpFalse label => jump image op label
  | .begin id =>
    image.scopes[id]?.map fun s =>
      "begin(" ++ toString s.params.length ++ "," ++ toString s.locals.length ++ ") :" ++ s.name
  | .call label _ nargs =>
    image.labels[label]?.map fun l => "call(" ++ toString nargs ++ ") " ++ addressText l.pc ++ " :" ++ l.name
  | .vcall cls slot nargs => do
    let c ← image.classes[cls]?
    let method ← methodName image c slot
    return "vcall[" ++ toString slot ++ "](" ++ toString nargs ++ ") " ++ c.name ++ "." ++ method
  | .ret nval | .halt nval => some (leaving op nval)
  | .libCall index nargs =>
    some ("libcall(" ++ toString nargs ++ ") " ++ toString index ++ ":" ++ libraryName index)
  | _ => some op.mnemonic

def entryNames (image : Image) (pc : Nat) (op : Op) : String :=
  match op with
  | .begin _ => String.join ((image.labels.toList.filter (·.pc == pc)).map fun l => l.name ++ ":\n")
  | _ => ""

/-- The source line before the first instruction of a run of instructions on that line. -/
def sourceLine (source : Option (List String)) (last line : Nat) : String :=
  match source with
  | none => ""
  | some lines =>
    if line = last then ""
    else
      let text := if line = 0 then "" else lines[line - 1]?.getD ""
      "; " ++ toString line ++ ": " ++ text ++ "\n"

/-- The instructions from offset `pc` on, inside a scope and after an instruction on line `last`. -/
def code (image : Image) (source : Option (List String)) (scope : Scope) (last pc : Nat) :
    List Instruction → Option String
  | [] => some ""
  | i :: rest => do
    let scope ← match i.op with
      | .begin id => image.scopes[id]?
      | _ => some scope
    let here ← instruction image scope i.op
    let line := addressText pc ++ "  " ++ padRight 6 i.pos.text ++ here ++ "\n"
    let after ← code image source scope i.pos.line (pc + 1) rest
    return sourceLine source last i.pos.line ++ entryNames image pc i.op ++ line ++ after

def bars (names : List String) : String := String.intercalate "|" names

def scopes (image : Image) : String :=
  "; -- scopes\n" ++ String.join (image.scopes.toList.map fun s =>
    "; " ++ s.name ++ "(" ++ bars s.params ++ ") " ++ bars s.locals ++ "\n")

def classRow (image : Image) (c : Class) : Option String := do
  let methods ← c.methods.toList.mapM fun m => image.labels[m.label]?.map (·.name)
  return "; " ++ c.name ++ " \x7b" ++ bars c.fields ++ "\x7d [" ++ String.intercalate ", " methods ++ "]\n"

def classes (image : Image) : Option String :=
  if image.classes.isEmpty then some ""
  else do
    let rows ← image.classes.toList.mapM (classRow image)
    return "; -- classes\n" ++ String.join rows

def strings (image : Image) : String :=
  if image.strings.isEmpty then ""
  else
    "; -- strings\n" ++ String.join (image.strings.toList.mapIdx fun i s =>
      ";[" ++ toString i ++ "] " ++ escapedText s ++ "\n")

end Listing

/-- **The listing of an image,** with the lines of its source between the instructions if they are given. -/
def Image.listing (image : Image) (source : Option String) : Option String := do
  let global ← image.global?
  let code ← Listing.code image (source.map lines) global 0 0 image.code.toList
  let classes ← Listing.classes image
  return code ++ Listing.scopes image ++ classes ++ Listing.strings image

end PseudoVm
