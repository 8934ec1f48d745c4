import PseudoVm.Image.Basic
/-!
# Image.Builder: making an image

Instructions refer to labels by number; a label gets its offset when it is placed, so forward references need
no second pass.  Faults are remembered in the order they happen, and `finish` reports the first.  An operation
that is given a number the builder never handed out has no result.

Two pairs of tables belong together, which a builder carries with it: every label is marked as placed or not, and the
number of a string is where it stands.
-/
namespace PseudoVm

/-- Why no image can be finished. -/
inductive BuildError
  | unresolvedLabel (name : String)
  | duplicateSymbol (name : String)
  | labelPlacedTwice (name : String)
  deriving DecidableEq, Repr

def BuildError.message : BuildError → String
  | .unresolvedLabel name => "label '" ++ name ++ "' was referenced but never placed"
  | .duplicateSymbol name => "duplicate symbol '" ++ name ++ "'"
  | .labelPlacedTwice name => "label '" ++ name ++ "' placed twice"

/-- An image under construction. -/
structure Builder where
  code : Array Instruction
  /-- Labels; one that is not placed has no offset yet. -/
  labels : Array Label
  /-- Whether a label is placed. -/
  placed : Array Bool
  /-- Latest label of every symbol name. -/
  symbols : List (String × LabelId)
  strings : Array String
  /-- The number of every string. -/
  stringIds : List (String × StringId)
  classes : Array Class
  scopes : Array Scope
  /-- Position of the instructions to come. -/
  pos : SourcePos
  /-- Faults in the order they happened. -/
  errors : Array BuildError
  paired : placed.size = labels.size
  numbered : ∀ text id, stringIds.lookup text = some id ↔ strings[id]? = some text

namespace Builder

/-- The start of an image whose program declares the given globals. -/
def new (globals : List String) : Builder :=
  { code := #[], labels := #[], placed := #[], symbols := [], strings := #[], stringIds := [], classes := #[],
    scopes := #[Scope.global globals], pos := ⟨1, 1⟩, errors := #[], paired := rfl, numbered := by simp }

/-- The scope of the whole program. -/
def globalScope (_ : Builder) : ScopeId := 0

def addScope (b : Builder) (s : Scope) : ScopeId × Builder := (b.scopes.size, { b with scopes := b.scopes.push s })

/-- A new label without an offset; names may repeat. -/
def newLabel (b : Builder) (name : String) : LabelId × Builder :=
  (b.labels.size,
    { b with labels := b.labels.push ⟨name, 0⟩, placed := b.placed.push false, paired := by simp [b.paired] })

/-- A new label that is known by its name from now on. -/
def newSymbol (b : Builder) (name : String) : LabelId × Builder :=
  let (id, b) := b.newLabel name
  (id, { b with symbols := (name, id) :: b.symbols })

/-- The label of a symbol, made if it is not known yet. -/
def symbol (b : Builder) (name : String) : LabelId × Builder :=
  match b.symbols.lookup name with
  | some id => (id, b)
  | none => b.newSymbol name

/-- A new symbol; it is a fault if the name is known. -/
def defineSymbol (b : Builder) (name : String) : LabelId × Builder :=
  let b := if (b.symbols.lookup name).isSome then { b with errors := b.errors.push (.duplicateSymbol name) } else b
  b.newSymbol name

/-- Gives a label the offset of the next instruction. -/
def setPlaced (b : Builder) (id : LabelId) (label : Label) : Builder :=
  { b with labels := b.labels.setIfInBounds id { label with pc := b.code.size },
           placed := b.placed.setIfInBounds id true, paired := by simp [b.paired] }

/-- Gives a label the offset of the next instruction; it is a fault if it has one. -/
def place (b : Builder) (id : LabelId) : Option Builder :=
  match b.placed[id]?, b.labels[id]? with
  | some true, some label => some { b with errors := b.errors.push (.labelPlacedTwice label.name) }
  | some false, some label => some (b.setPlaced id label)
  | _, _ => none

theorem numbered_push {strings : Array String} {ids : List (String × StringId)}
    (h : ∀ text id, ids.lookup text = some id ↔ strings[id]? = some text) {s : String} (hs : ids.lookup s = none)
    (text : String) (id : StringId) :
    ((s, strings.size) :: ids).lookup text = some id ↔ (strings.push s)[id]? = some text := by
  rw [List.lookup_cons, Array.getElem?_push]
  by_cases ht : text = s
  · have hnew : strings[id]? ≠ some s := fun hid => nomatch hs.symm.trans ((h s id).2 hid)
    rw [ht, beq_self_eq_true]
    by_cases hi : id = strings.size
    · simp [hi]
    · simp [hi, Ne.symm hi, hnew]
  · rw [beq_false_of_ne ht]
    by_cases hi : id = strings.size
    · simp [hi, Ne.symm ht, h]
    · simp [hi, h]

/-- Numbers a string that has no number. -/
def addString (b : Builder) (s : String) (hs : b.stringIds.lookup s = none) : Builder :=
  { b with strings := b.strings.push s, stringIds := (s, b.strings.size) :: b.stringIds,
           numbered := numbered_push b.numbered hs }

/-- The number of a string literal, the same for equal strings. -/
def intern (b : Builder) (s : String) : StringId × Builder :=
  match hs : b.stringIds.lookup s with
  | some id => (id, b)
  | none => (b.strings.size, b.addString s hs)

def addClass (b : Builder) (name : String) (fields : List String) : ClassId × Builder :=
  (b.classes.size, { b with classes := b.classes.push ⟨name, fields, #[]⟩ })

/-- Adds a virtual method to a class and tells its slot. -/
def addMethod (b : Builder) (cls : ClassId) (m : Method) : Option (Nat × Builder) :=
  match b.classes[cls]? with
  | none => none
  | some c => some (c.methods.size,
      { b with classes := b.classes.setIfInBounds cls { c with methods := c.methods.push m } })

def setPos (b : Builder) (pos : SourcePos) : Builder := { b with pos := pos }

def setLine (b : Builder) (n : Nat) : Builder := b.setPos ⟨n, 1⟩

def emit (b : Builder) (op : Op) : Nat × Builder := (b.code.size, { b with code := b.code.push ⟨b.pos, op⟩ })

/-- Places a label and appends the entry marker of a scope. -/
def begin (b : Builder) (label : LabelId) (scope : ScopeId) : Option (Nat × Builder) :=
  (b.place label).map fun b => b.emit (.begin scope)

/-- The first label that is not placed, by its name. -/
def unplaced? (b : Builder) : Option String :=
  (b.placed.toList.findIdx? (!·)).bind fun id => b.labels[id]?.map (·.name)

/-- The finished image: the first fault counts, then the first label that is not placed. -/
def finish (b : Builder) : Except BuildError Image :=
  match b.errors[0]? with
  | some e => .error e
  | none =>
    match b.unplaced? with
    | some name => .error (.unresolvedLabel name)
    | none => .ok
        { code := b.code, labels := b.labels, strings := b.strings, classes := b.classes, scopes := b.scopes,
          globalScope := b.globalScope }

end Builder

end PseudoVm
