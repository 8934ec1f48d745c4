import PseudoVm.Library.Basic
import PseudoVm.Library.Files
import PseudoVm.Library.Math
import PseudoVm.Library.Strings
/-!
# Library.Call: calling a library function

A call acts on the world and may leave a value.  What it changed before it failed stays changed: output that
was written, lines that were read.
-/
namespace PseudoVm

namespace Library

/-- A call in progress: it changes the world, and may stop early with what it changed. -/
abbrev Act := EStateM Stop World

def raise {α : Type} (f : Fault) : Act α := throw (.fault f)

/-- A function that only computes. -/
def computed (r : Except Fault Value) : Act (Option Value) :=
  match r with
  | .ok v => return some v
  | .error f => raise f

def update (f : World → Except Fault (Value × World)) : Act (Option Value) := fun w =>
  match f w with
  | .ok (v, w) => .ok (some v) w
  | .error e => .error (.fault e) w

/-- A function that only leaves a new world. -/
def effect (f : World → Except Fault World) : Act (Option Value) := fun w =>
  match f w with
  | .ok w => .ok none w
  | .error e => .error (.fault e) w

/-- A function that leaves a new world even if it fails. -/
def attempt (f : World → Except Fault Value × World) : Act (Option Value) := fun w =>
  match f w with
  | (.ok v, w) => .ok (some v) w
  | (.error e, w) => .error (.fault e) w

def displayAll (heap : Heap) (args : List Value) : Option String :=
  (args.mapM heap.display?).map fun texts => String.join texts ++ "\n"

def display (args : List Value) : Act (Option Value) := fun w =>
  match displayAll w.heap args with
  | some text => .ok none { w with console := w.console.write text }
  | none => .error (.abort .deadlock) w

def ask {α : Type} (function : String) (d : Dialogue α) (value : α → Value) (args : List Value) :
    Act (Option Value) := fun w =>
  match noArguments function args with
  | .error e => .error (.fault e) w
  | .ok () =>
    match d.ask w.console with
    | (.ok v, console) => .ok (some (value v)) { w with console := console }
    | (.error e, console) => .error (.fault e) { w with console := console }

/-- A random integer of a range, both ends included. -/
def random (args : List Value) : Act (Option Value) := update fun w => do
  let (low, high) ← two "random" args
  let low ← low.asInt
  let high ← high.asInt
  if high < low then
    throw (rejected "random" ("empty range [" ++ Numeral.intText low ++ ", " ++ Numeral.intText high ++ "]"))
  let (n, r) := w.random.between low high
  return (.int n, { w with random := r })

/-- **What each library function does.** -/
def call (f : LibraryFunction) (args : List Value) : Act (Option Value) :=
  match f with
  | .display => display args
  | .inputInteger => ask f.name integerDialogue .int args
  | .inputReal => ask f.name realDialogue .real args
  | .inputString => ask f.name stringDialogue .text args
  | .inputCharacter => ask f.name characterDialogue .char args
  | .inputBoolean => ask f.name booleanDialogue .bool args
  | .random => random args
  | .sqrt => computed (realFunction f.name Float.sqrt args)
  | .pow => computed (pow args)
  | .abs => computed (abs args)
  | .cos => computed (realFunction f.name Float.cos args)
  | .round => computed (realFunction f.name Float.round args)
  | .sin => computed (realFunction f.name Float.sin args)
  | .tan => computed (realFunction f.name Float.tan args)
  | .toInteger => computed (toInteger args)
  | .toReal => computed (toReal args)
  | .integerFormat => computed (integerFormat args)
  | .realFormat => computed (amountFormat f.name "" args)
  | .currencyFormat => computed (amountFormat f.name "$" args)
  | .length => computed (length args)
  | .append => computed (append args)
  | .toUpper => computed (caseMap f.name upperByte args)
  | .toLower => computed (caseMap f.name lowerByte args)
  | .substring => computed (substring args)
  | .contains => computed (contains args)
  | .stringToInteger => computed (stringToInteger args)
  | .stringToReal => computed (stringToReal args)
  | .isInteger => computed (isInteger args)
  | .isReal => computed (isReal args)
  | .openOutputFile => update (openOutput f.name false args)
  | .openAppendFile => update (openOutput f.name true args)
  | .openInputFile => update (openInput args)
  | .closeOutputFile => effect (close args)
  | .closeInputFile => effect (close args)
  | .writeFile => effect (writeFile args)
  | .readInteger => attempt (readValue f.name integerLine? args)
  | .readReal => attempt (readValue f.name realLine? args)
  | .readString => attempt (readValue f.name stringLine? args)
  | .readCharacter => attempt (readValue f.name characterLine? args)
  | .readBoolean => attempt (readValue f.name booleanLine? args)
  | .eof => update (eof args)

end Library

end PseudoVm
