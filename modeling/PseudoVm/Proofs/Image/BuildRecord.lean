import Mathlib.Data.List.Induction
import Mathlib.Data.List.Nodup
import PseudoVm.Image.Builder
import PseudoVm.Proofs.Image.Diagnosis
/-!
# Image.BuildRecord: the operations on a builder, and what they come to

A code generator's operations on a builder, with what each of them was answered, are a record (`Builder.Record`).  What
the image has to be like is read off the record alone, without a builder in sight: which instructions were emitted and
where they stand, which labels were made and when each was first placed, which symbols were known, and what went wrong
first.  Each of these grows with the record by its last operation alone (the lemmas named `_concat`).
-/
namespace PseudoVm

namespace Builder

/-- What a code generator does with a builder. -/
inductive Operation
  | globalScope
  | scope (s : Scope)
  | newLabel (name : String)
  | symbol (name : String)
  | defineSymbol (name : String)
  | place (label : LabelId)
  | begin (label : LabelId) (scope : ScopeId)
  | intern (text : String)
  | cls (name : String) (fields : List String)
  | method (cls : ClassId) (m : Method)
  | pos (p : SourcePos)
  | line (n : Nat)
  | emit (op : Op)

/-- What an operation is answered. -/
inductive Answer
  | index (index : TableIndex)
  | slot (n : Nat)
  | offset (pc : Nat)
  | done
  deriving DecidableEq, Repr

namespace Operation

/-- The name of the label that an operation makes or finds. -/
def labels? : Operation → Option String
  | newLabel name | symbol name | defineSymbol name => some name
  | _ => none

/-- The symbol that is known from an operation on. -/
def symbol? : Operation → Option String
  | symbol name | defineSymbol name => some name
  | _ => none

/-- The label that an operation places. -/
def places? : Operation → Option LabelId
  | place label | begin label _ => some label
  | _ => none

/-- The instruction that an operation emits. -/
def emits? : Operation → Option Op
  | emit op => some op
  | begin _ id => some (.begin id)
  | _ => none

/-- The position that an operation sets. -/
def moves? : Operation → Option SourcePos
  | pos p => some p
  | line n => some ⟨n, 1⟩
  | _ => none

/-- The indices that an operation names. -/
def indices : Operation → List TableIndex
  | place label => [.label label]
  | begin label id => [.label label, .scope id]
  | method id m => .cls id :: m.indices
  | emit op => op.indices
  | _ => []

end Operation

/-- Carries out an operation: `none` if it names an index that the builder does not have. -/
def carryOut? (b : Builder) : Operation → Option (Answer × Builder)
  | .globalScope => some (.index (.scope b.globalScope), b)
  | .scope s => some (.index (.scope (b.addScope s).1), (b.addScope s).2)
  | .newLabel name => some (.index (.label (b.newLabel name).1), (b.newLabel name).2)
  | .symbol name => some (.index (.label (b.symbol name).1), (b.symbol name).2)
  | .defineSymbol name => some (.index (.label (b.defineSymbol name).1), (b.defineSymbol name).2)
  | .place label => (b.place label).map fun b => (.done, b)
  | .begin label scope => (b.begin label scope).map fun r => (.offset r.1, r.2)
  | .intern text => some (.index (.string (b.intern text).1), (b.intern text).2)
  | .cls name fields => some (.index (.cls (b.addClass name fields).1), (b.addClass name fields).2)
  | .method cls m => (b.addMethod cls m).map fun r => (.slot r.1, r.2)
  | .pos p => some (.done, b.setPos p)
  | .line n => some (.done, b.setLine n)
  | .emit op => some (.offset (b.emit op).1, (b.emit op).2)

/-- Operations that were carried out, with their answers, the earliest first. -/
abbrev Record := List (Operation × Answer)

/-- Carries out operations one after the other. -/
def run? (b : Builder) : List Operation → Option (Record × Builder)
  | [] => some ([], b)
  | o :: rest =>
    match b.carryOut? o with
    | none => none
    | some (a, b) => (b.run? rest).map fun r => ((o, a) :: r.1, r.2)

/-! ## Reading a record -/

namespace Record

variable {r : Record} {past : Record} {x y : Operation × Answer} {id pc : Nat} {name : String}

/-- The instructions emitted. -/
def emitted (r : Record) : List Op := r.filterMap (·.1.emits?)

/-- The position set last, at first the start of the first line. -/
def position (r : Record) : SourcePos := (r.filterMap (·.1.moves?)).getLastD ⟨1, 1⟩

/-- An index was handed out. -/
def Gives (r : Record) (index : TableIndex) : Prop := ∃ x ∈ r, x.2 = .index index

/-- A label was handed out under a name. -/
def Names (r : Record) (id : LabelId) (name : String) : Prop :=
  ∃ x ∈ r, x.1.labels? = some name ∧ x.2 = .index (.label id)

/-- A symbol is known. -/
def Knows (r : Record) (name : String) : Prop := ∃ x ∈ r, x.1.symbol? = some name

/-- A label was placed. -/
def Places (r : Record) (id : LabelId) : Prop := ∃ x ∈ r, x.1.places? = some id

/-- **A label was first placed at an offset**, which is the number of instructions emitted until then. -/
def PlacesAt (r : Record) (id : LabelId) (pc : Nat) : Prop :=
  ∃ past x, past ++ [x] <+: r ∧ x.1.places? = some id ∧ ¬ Places past id ∧ (emitted past).length = pc

/-- No symbol was defined that was known already. -/
def DefinesOnce (r : Record) : Prop :=
  ∀ past x, past ++ [x] <+: r → ∀ name, x.1 = .defineSymbol name → ¬ Knows past name

/-- No label was placed twice. -/
def PlacesOnce (r : Record) : Prop :=
  ∀ past x, past ++ [x] <+: r → ∀ id, x.1.places? = some id → ¬ Places past id

/-- Every label was placed. -/
def PlacesAll (r : Record) : Prop := ∀ id name, Names r id name → Places r id

/-- **What is wrong with an operation** after those before it. -/
inductive Fault (past : Record) : Operation → BuildError → Prop
  | duplicate {name : String} (h : Knows past name) : Fault past (.defineSymbol name) (.duplicateSymbol name)
  | again {o : Operation} {id : LabelId} {name : String} (ho : o.places? = some id) (hp : Places past id)
    (hn : Names past id name) : Fault past o (.labelPlacedTwice name)

/-- The first operation that went wrong, and how. -/
def FirstFault (r : Record) (e : BuildError) : Prop :=
  ∃ past x, past ++ [x] <+: r ∧ DefinesOnce past ∧ PlacesOnce past ∧ Fault past x.1 e

/-- The lowest label that was not placed. -/
def FirstUnplaced (r : Record) (e : BuildError) : Prop :=
  ∃ id name, Names r id name ∧ ¬ Places r id ∧ (∀ j n, j < id → Names r j n → Places r j) ∧ e = .unresolvedLabel name

theorem not_prefix_nil : ¬ past ++ [x] <+: [] := fun h =>
  List.append_ne_nil_of_right_ne_nil _ (List.cons_ne_nil _ _) (List.prefix_nil.1 h)

theorem prefix_concat : past ++ [x] <+: r ++ [y] ↔ past = r ∧ x = y ∨ past ++ [x] <+: r := by
  rw [List.prefix_concat_iff, List.append_singleton_inj]

theorem exists_prefix_concat {P : Record → Operation × Answer → Prop} :
    (∃ past x, past ++ [x] <+: r ++ [y] ∧ P past x) ↔ (∃ past x, past ++ [x] <+: r ∧ P past x) ∨ P r y := by
  constructor
  · rintro ⟨past, x, hx, h⟩
    rcases prefix_concat.1 hx with ⟨rfl, rfl⟩ | hx
    · exact .inr h
    · exact .inl ⟨past, x, hx, h⟩
  · rintro (⟨past, x, hx, h⟩ | h)
    · exact ⟨past, x, prefix_concat.2 (.inr hx), h⟩
    · exact ⟨r, y, prefix_concat.2 (.inl ⟨rfl, rfl⟩), h⟩

theorem forall_prefix_concat {P : Record → Operation × Answer → Prop} :
    (∀ past x, past ++ [x] <+: r ++ [y] → P past x) ↔ (∀ past x, past ++ [x] <+: r → P past x) ∧ P r y := by
  constructor
  · intro h
    exact ⟨fun past x hx => h past x (prefix_concat.2 (.inr hx)), h r y (prefix_concat.2 (.inl ⟨rfl, rfl⟩))⟩
  · rintro ⟨h, hy⟩ past x hx
    rcases prefix_concat.1 hx with ⟨rfl, rfl⟩ | hx
    · exact hy
    · exact h past x hx

theorem exists_concat {P : Operation × Answer → Prop} : (∃ x ∈ r ++ [y], P x) ↔ (∃ x ∈ r, P x) ∨ P y := by
  simp only [List.mem_append, List.mem_singleton, or_and_right, exists_or, exists_eq_left]

theorem emitted_concat : emitted (r ++ [y]) = emitted r ++ y.1.emits?.toList := by
  unfold emitted
  rw [List.filterMap_append]
  cases h : y.1.emits? <;> simp [h]

theorem position_concat : position (r ++ [y]) = y.1.moves?.getD (position r) := by
  unfold position
  rw [List.filterMap_append]
  cases h : y.1.moves? <;> simp [h]

theorem gives_concat {index : TableIndex} : Gives (r ++ [y]) index ↔ Gives r index ∨ y.2 = .index index := exists_concat

theorem names_concat : Names (r ++ [y]) id name ↔
    Names r id name ∨ y.1.labels? = some name ∧ y.2 = .index (.label id) := exists_concat

theorem knows_concat : Knows (r ++ [y]) name ↔ Knows r name ∨ y.1.symbol? = some name := exists_concat

theorem places_concat : Places (r ++ [y]) id ↔ Places r id ∨ y.1.places? = some id := exists_concat

theorem placesAt_concat : PlacesAt (r ++ [y]) id pc ↔
    PlacesAt r id pc ∨ y.1.places? = some id ∧ ¬ Places r id ∧ (emitted r).length = pc := exists_prefix_concat

theorem definesOnce_concat : DefinesOnce (r ++ [y]) ↔
    DefinesOnce r ∧ ∀ name, y.1 = .defineSymbol name → ¬ Knows r name := forall_prefix_concat

theorem placesOnce_concat : PlacesOnce (r ++ [y]) ↔
    PlacesOnce r ∧ ∀ id, y.1.places? = some id → ¬ Places r id := forall_prefix_concat

theorem firstFault_concat {e : BuildError} : FirstFault (r ++ [y]) e ↔
    FirstFault r e ∨ DefinesOnce r ∧ PlacesOnce r ∧ Fault r y.1 e := exists_prefix_concat

theorem places_iff : Places r id ↔ ∃ pc, PlacesAt r id pc := by
  induction r using List.reverseRecOn with
  | nil =>
    constructor
    · rintro ⟨x, hx, -⟩
      cases hx
    · rintro ⟨pc, past, x, hx, -⟩
      exact absurd hx not_prefix_nil
  | append_singleton r y ih =>
    simp only [places_concat, placesAt_concat, exists_or, ← ih, exists_and_left, exists_eq', and_true]
    by_cases h : Places r id <;> simp [h]

end Record

end Builder

end PseudoVm
