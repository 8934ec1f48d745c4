import PseudoVm.Proofs.Image.BuildRecord
/-!
# Image.BuildStep: what one operation does to a builder

`Builder.Step` has a case for each way an operation can go; everything else is read off these cases.  The code grows by
what is emitted, at the position set last; a label gets its name when it is made and its offset when it is first placed;
a fault is remembered exactly for what is wrong; and no table ever loses an entry.
-/
namespace PseudoVm

namespace Builder

variable {b b' : Builder} {o : Operation} {a : Answer}

/-- The name of a label. -/
def nameOf? (b : Builder) (id : LabelId) : Option String := b.labels[id]?.map (·.name)

/-- The offset of a label, once it is placed. -/
def pcOf? (b : Builder) (id : LabelId) : Option Nat :=
  if b.placed[id]? = some true then b.labels[id]?.map (·.pc) else none

/-- Whether a table of the builder has an entry at an index. -/
def Has (b : Builder) : TableIndex → Prop
  | .label id => id < b.labels.size
  | .scope id => id < b.scopes.size
  | .cls id => id < b.classes.size
  | .string id => id < b.strings.size

/-- **The ways an operation can go**, each with its answer and the builder after it. -/
inductive Step (b : Builder) : Operation → Answer → Builder → Prop
  | globalScope : Step b .globalScope (.index (.scope b.globalScope)) b
  | scope (s : Scope) : Step b (.scope s) (.index (.scope b.scopes.size)) (b.addScope s).2
  | newLabel (name : String) : Step b (.newLabel name) (.index (.label b.labels.size)) (b.newLabel name).2
  | found {name : String} {id : LabelId} (h : b.symbols.lookup name = some id) :
    Step b (.symbol name) (.index (.label id)) b
  | symbol {name : String} (h : b.symbols.lookup name = none) :
    Step b (.symbol name) (.index (.label b.labels.size)) (b.newSymbol name).2
  | define {name : String} (h : b.symbols.lookup name = none) :
    Step b (.defineSymbol name) (.index (.label b.labels.size)) (b.newSymbol name).2
  | redefine {name : String} {id : LabelId} (h : b.symbols.lookup name = some id) :
    Step b (.defineSymbol name) (.index (.label b.labels.size))
      { (b.newSymbol name).2 with errors := b.errors.push (.duplicateSymbol name) }
  | place {label : LabelId} {l : Label} (hp : b.placed[label]? = some false) (h : b.labels[label]? = some l) :
    Step b (.place label) .done (b.setPlaced label l)
  | again {label : LabelId} {l : Label} (hp : b.placed[label]? = some true) (h : b.labels[label]? = some l) :
    Step b (.place label) .done { b with errors := b.errors.push (.labelPlacedTwice l.name) }
  | begin {label : LabelId} {scope : ScopeId} {b' : Builder} (h : Step b (.place label) .done b') :
    Step b (.begin label scope) (.offset b'.code.size) (b'.emit (.begin scope)).2
  | interned {text : String} {id : StringId} (h : b.strings[id]? = some text) :
    Step b (.intern text) (.index (.string id)) b
  | intern {text : String} (h : b.stringIds.lookup text = none) :
    Step b (.intern text) (.index (.string b.strings.size)) (b.addString text h)
  | cls (name : String) (fields : List String) :
    Step b (.cls name fields) (.index (.cls b.classes.size)) (b.addClass name fields).2
  | method {cls : ClassId} {c : Class} (m : Method) (h : b.classes[cls]? = some c) :
    Step b (.method cls m) (.slot c.methods.size)
      { b with classes := b.classes.setIfInBounds cls { c with methods := c.methods.push m } }
  | pos (p : SourcePos) : Step b (.pos p) .done (b.setPos p)
  | line (n : Nat) : Step b (.line n) .done (b.setLine n)
  | emit (op : Op) : Step b (.emit op) (.offset b.code.size) (b.emit op).2

theorem step_of_place {label : LabelId} (h : b.place label = some b') : Step b (.place label) .done b' := by
  unfold place at h
  split at h
  · rename_i hp hl
    cases h
    exact .again hp hl
  · rename_i hp hl
    cases h
    exact .place hp hl
  · cases h

theorem step_intern (text : String) : Step b (.intern text) (.index (.string (b.intern text).1)) (b.intern text).2 := by
  unfold Builder.intern
  split
  · rename_i id hid
    exact .interned ((b.numbered text id).1 hid)
  · rename_i hnone
    exact .intern hnone

/-- **An operation that is carried out goes one of these ways.** -/
theorem step_of_carryOut? (h : b.carryOut? o = some (a, b')) : Step b o a b' := by
  cases o with
  | symbol name =>
    cases h
    unfold Builder.symbol
    split
    · rename_i hid
      exact .found hid
    · rename_i hnone
      exact .symbol hnone
  | defineSymbol name =>
    cases h
    unfold Builder.defineSymbol
    cases hid : b.symbols.lookup name with
    | none => exact .define hid
    | some id => exact .redefine hid
  | place label =>
    obtain ⟨_, hp, he⟩ := Option.map_eq_some_iff.1 h
    cases he
    exact step_of_place hp
  | begin label scope =>
    obtain ⟨_, hb, he⟩ := Option.map_eq_some_iff.1 h
    obtain ⟨b₁, hp, rfl⟩ := Option.map_eq_some_iff.1 hb
    cases he
    exact .begin (step_of_place hp)
  | intern text =>
    cases h
    exact step_intern text
  | method cls m =>
    obtain ⟨_, hb, he⟩ := Option.map_eq_some_iff.1 h
    cases he
    unfold Builder.addMethod at hb
    split at hb
    · cases hb
    · rename_i c hc
      cases hb
      exact .method m hc
  | globalScope | scope | newLabel | cls | pos | line | emit =>
    cases h
    constructor

theorem exists_carryOut? (h : ∀ index ∈ o.indices, b.Has index) : ∃ a b', b.carryOut? o = some (a, b') := by
  have hplace : ∀ {label : LabelId}, b.Has (.label label) → ∃ b₁, b.place label = some b₁ := by
    intro label hl
    have hp : label < b.placed.size := b.paired ▸ hl
    unfold place
    rw [Array.getElem?_eq_getElem hl, Array.getElem?_eq_getElem hp]
    cases b.placed[label] <;> exact ⟨_, rfl⟩
  cases o with
  | place label =>
    obtain ⟨b₁, hb⟩ := hplace (h _ List.mem_cons_self)
    exact ⟨_, _, by rw [carryOut?, hb]; rfl⟩
  | begin label scope =>
    obtain ⟨b₁, hb⟩ := hplace (h _ List.mem_cons_self)
    exact ⟨_, _, by rw [carryOut?, Builder.begin, hb]; rfl⟩
  | method cls m =>
    have hcls : cls < b.classes.size := h _ List.mem_cons_self
    exact ⟨_, _, by rw [carryOut?, addMethod, Array.getElem?_eq_getElem hcls]; rfl⟩
  | globalScope | scope | newLabel | symbol | defineSymbol | intern | cls | pos | line | emit => exact ⟨_, _, rfl⟩

/-! ## Code -/

/-- **An instruction is emitted where the position was set last**, and nothing else touches the code. -/
theorem Step.code (h : Step b o a b') :
    b'.code.toList = b.code.toList ++ (o.emits?.map (Instruction.mk b.pos)).toList ∧ b'.pos = o.moves?.getD b.pos := by
  induction h with
  | @begin _ scope b₁ _ ih =>
    -- the label is placed first, which leaves code and position alone
    obtain ⟨hcode, hpos⟩ := ih
    have hpos : b₁.pos = b.pos := hpos
    have hcode : b₁.code.toList = b.code.toList := hcode.trans (List.append_nil _)
    refine ⟨?_, hpos⟩
    rw [Builder.emit, Array.toList_push, hcode, hpos]
    rfl
  | emit op => exact ⟨Array.toList_push, rfl⟩
  | globalScope | scope | newLabel | found | symbol | define | redefine | place | again | interned | intern | cls
  | method | pos | line => exact ⟨(List.append_nil _).symm, rfl⟩

/-! ## Labels -/

section Labels

variable {id label : LabelId} {name made : String} {pc size : Nat}

theorem nameOf?_newLabel : (b.newLabel made).2.nameOf? id = some name ↔
    b.nameOf? id = some name ∨ some made = some name ∧
      Answer.index (.label b.labels.size) = .index (.label id) := by
  unfold nameOf? newLabel
  rw [Array.getElem?_push]
  by_cases hi : id = b.labels.size
  · simp [hi]
  · simp [hi, Ne.symm hi]

theorem pcOf?_newLabel : (b.newLabel made).2.pcOf? id = b.pcOf? id := by
  unfold pcOf? newLabel
  rw [Array.getElem?_push, Array.getElem?_push, b.paired]
  by_cases hi : id = b.labels.size
  · simp [hi, ← b.paired]
  · simp [hi]

/-- **Placing changes the offset of that label alone.** -/
theorem getElem?_setPlaced {l : Label} (h : b.labels[label]? = some l) :
    (b.setPlaced label l).labels[id]? =
      (if id = label then some { l with pc := b.code.size } else b.labels[id]?) ∧
    (b.setPlaced label l).placed[id]? = if id = label then some true else b.placed[id]? := by
  obtain ⟨hlt, -⟩ := Array.getElem?_eq_some_iff.1 h
  unfold setPlaced
  by_cases hi : id = label
  · rw [if_pos hi, if_pos hi, hi]
    exact ⟨Array.getElem?_setIfInBounds_self_of_lt hlt, Array.getElem?_setIfInBounds_self_of_lt (b.paired ▸ hlt)⟩
  · rw [if_neg hi, if_neg hi]
    exact ⟨Array.getElem?_setIfInBounds_ne (Ne.symm hi), Array.getElem?_setIfInBounds_ne (Ne.symm hi)⟩

/-- **A label gets its name when it is made**, and keeps it. -/
theorem Step.nameOf? (h : Step b o a b')
    (hsymbols : ∀ name id, b.symbols.lookup name = some id → b.nameOf? id = some name) (id : LabelId) (name : String) :
    b'.nameOf? id = some name ↔ b.nameOf? id = some name ∨ o.labels? = some name ∧ a = .index (.label id) := by
  induction h with
  | newLabel | symbol | define | redefine => exact nameOf?_newLabel
  | found hid =>
    -- what a known symbol answers is a label that was made under that name
    refine ⟨.inl, fun hn => hn.elim (fun hn => hn) ?_⟩
    rintro ⟨hname, hi⟩
    cases hname
    cases hi
    exact hsymbols _ _ hid
  | @place label _ hp hl =>
    refine Iff.trans ?_ (or_iff_left fun hn => nomatch hn.1).symm
    unfold Builder.nameOf?
    rw [(getElem?_setPlaced hl).1]
    by_cases hi : id = label
    · simp [hi, hl]
    · simp [hi]
  | begin _ ih =>
    have hkept := ih.trans (or_iff_left fun hn => nomatch hn.1)
    exact hkept.trans (or_iff_left fun hn => nomatch hn.1).symm
  | globalScope | scope | again | interned | intern | cls | method | pos | line | emit =>
    exact (or_iff_left fun hn => nomatch hn.1).symm

/-- **A label gets the offset of the next instruction when it is first placed**, and keeps it. -/
theorem Step.pcOf? (h : Step b o a b') (id : LabelId) (pc : Nat) :
    b'.pcOf? id = some pc ↔ b.pcOf? id = some pc ∨ o.places? = some id ∧ b.pcOf? id = none ∧ b.code.size = pc := by
  induction h with
  | newLabel | symbol | define | redefine =>
    refine Iff.trans ?_ (or_iff_left fun hn => nomatch hn.1).symm
    exact Eq.congr_left pcOf?_newLabel
  | @place label _ hp hl =>
    unfold Builder.pcOf?
    rw [(getElem?_setPlaced hl).1, (getElem?_setPlaced hl).2]
    by_cases hi : id = label
    · simp [hi, hp, Operation.places?]
    · simp [hi, Ne.symm hi, Operation.places?]
  | @again label _ hp hl =>
    refine (or_iff_left ?_).symm
    rintro ⟨hi, hnone, -⟩
    cases hi
    rw [Builder.pcOf?, if_pos hp, hl] at hnone
    cases hnone
  | begin _ ih => exact ih
  | globalScope | scope | found | interned | intern | cls | method | pos | line | emit =>
    exact (or_iff_left fun hn => nomatch hn.1).symm

/-- **The label of a symbol is the one that was handed out for it last.** -/
theorem Step.lookup (h : Step b o a b') (name : String) :
    b'.symbols.lookup name = b.symbols.lookup name ∧ o.symbol? ≠ some name ∨
    o.symbol? = some name ∧ ∃ id, b'.symbols.lookup name = some id ∧ a = .index (.label id) := by
  have hnew : ∀ made, ((made, b.labels.size) :: b.symbols).lookup name = b.symbols.lookup name ∧ some made ≠ some name ∨
      some made = some name ∧ ∃ id, ((made, b.labels.size) :: b.symbols).lookup name = some id ∧
        Answer.index (.label b.labels.size) = .index (.label id) := by
    intro made
    rw [List.lookup_cons]
    by_cases hn : name = made
    · rw [hn, beq_self_eq_true]
      exact .inr ⟨rfl, _, rfl, rfl⟩
    · rw [beq_false_of_ne hn]
      exact .inl ⟨rfl, fun he => hn (Option.some.inj he).symm⟩
  induction h with
  | symbol | define | redefine => exact hnew _
  | @found found id hid =>
    by_cases hn : name = found
    · rw [hn]
      exact .inr ⟨rfl, id, hid, rfl⟩
    · exact .inl ⟨rfl, fun he => hn (Option.some.inj he).symm⟩
  | begin _ ih =>
    rcases ih with ⟨he, -⟩ | ⟨ho, -⟩
    · exact .inl ⟨he, nofun⟩
    · cases ho
  | globalScope | scope | newLabel | place | again | interned | intern | cls | method | pos | line | emit =>
    exact .inl ⟨rfl, nofun⟩

end Labels

/-! ## Faults -/

/-- The fault that an operation is remembered for. -/
def complaint? (b : Builder) : Operation → Option BuildError
  | .defineSymbol name => (b.symbols.lookup name).map fun _ => .duplicateSymbol name
  | .place label | .begin label _ => (b.pcOf? label).bind fun _ => (b.nameOf? label).map .labelPlacedTwice
  | _ => none

/-- **Faults are remembered in the order they happen.** -/
theorem Step.errors (h : Step b o a b') : b'.errors.toList = b.errors.toList ++ (b.complaint? o).toList := by
  induction h with
  | define hid =>
    rw [complaint?, hid]
    exact (List.append_nil _).symm
  | redefine hid =>
    rw [complaint?, hid]
    exact Array.toList_push
  | place hp hl =>
    rw [complaint?, Builder.pcOf?, hp]
    exact (List.append_nil _).symm
  | again hp hl =>
    rw [complaint?, Builder.pcOf?, if_pos hp, Builder.nameOf?, hl]
    exact Array.toList_push
  | begin _ ih => exact ih
  | globalScope | scope | newLabel | found | symbol | interned | intern | cls | method | pos | line | emit =>
    exact (List.append_nil _).symm

/-! ## Strings -/

/-- **No string loses its number**, and what is answered for a string is its number. -/
theorem Step.strings (h : Step b o a b') :
    (∀ (id : StringId) text, b.strings[id]? = some text → b'.strings[id]? = some text) ∧
    ∀ text, o = .intern text → ∃ id, a = .index (.string id) ∧ b'.strings[id]? = some text := by
  induction h with
  | interned hid =>
    refine ⟨fun _ _ h => h, fun _ he => ?_⟩
    cases he
    exact ⟨_, rfl, hid⟩
  | intern hnew =>
    refine ⟨fun id text h => ?_, fun _ he => ?_⟩
    · rw [addString, Array.getElem?_push, if_neg (Nat.ne_of_lt (Array.getElem?_eq_some_iff.1 h).1)]
      exact h
    · cases he
      exact ⟨_, rfl, Array.getElem?_push_size⟩
  | begin _ ih => exact ⟨ih.1, nofun⟩
  | globalScope | scope | newLabel | found | symbol | define | redefine | place | again | cls | method | pos | line
  | emit => exact ⟨fun _ _ h => h, nofun⟩

/-- **The strings are all different**, since each has one number. -/
theorem nodup_strings (b : Builder) : b.strings.toList.Nodup := by
  refine List.nodup_iff_injective_get.2 fun i j hij => ?_
  have hget : ∀ k : Fin b.strings.toList.length, b.stringIds.lookup (b.strings.toList.get k) = some k.1 := fun k => by
    rw [b.numbered, ← Array.getElem?_toList]
    exact List.getElem?_eq_getElem k.2
  have hi := hget i
  rw [hij, hget j] at hi
  exact Fin.ext (Option.some.inj hi).symm

/-! ## Tables -/

/-- **No table loses an entry.** -/
theorem Step.has (h : Step b o a b') {index : TableIndex} (hi : b.Has index) : b'.Has index := by
  have hgrow : ∀ {α : Type} {xs : Array α} {x : α} {i : Nat}, i < xs.size → i < (xs.push x).size := by
    intro α xs x i hlt
    rw [Array.size_push]
    exact Nat.lt_succ_of_lt hlt
  induction h with
  | scope | newLabel | symbol | define | redefine | intern | cls => cases index <;> first | exact hgrow hi | exact hi
  | place | method =>
    cases index <;> first | exact Nat.lt_of_lt_of_eq hi Array.size_setIfInBounds.symm | exact hi
  | begin _ ih => cases index <;> exact ih
  | globalScope | found | again | interned | pos | line | emit => exact hi

/-- **An index that is handed out has an entry.** -/
theorem Step.has_answer {index : TableIndex} (h : Step b o (.index index) b') (hg : 0 < b.scopes.size)
    (hsymbols : ∀ name id, b.symbols.lookup name = some id → b.nameOf? id = some name) : b'.Has index := by
  have hlast : ∀ {α : Type} {xs : Array α} {x : α}, xs.size < (xs.push x).size := by
    intro α xs x
    rw [Array.size_push]
    exact Nat.lt_succ_self _
  cases h with
  | globalScope => exact hg
  | found hid =>
    obtain ⟨l, hl, -⟩ := Option.map_eq_some_iff.1 (hsymbols _ _ hid)
    exact (Array.getElem?_eq_some_iff.1 hl).1
  | interned hid => exact (Array.getElem?_eq_some_iff.1 hid).1
  | scope | newLabel | symbol | define | redefine | intern | cls => exact hlast

/-- **Methods are only added.** -/
theorem Step.methods (h : Step b o a b') {c' : Class} {m : Method} (hc : c' ∈ b'.classes) (hm : m ∈ c'.methods) :
    (∃ c ∈ b.classes, m ∈ c.methods) ∨ ∃ cls, o = .method cls m := by
  induction h with
  | method added hcls =>
    rcases Array.mem_or_eq_of_mem_setIfInBounds hc with hc | rfl
    · exact .inl ⟨c', hc, hm⟩
    · rcases Array.mem_push.1 hm with hm | rfl
      · exact .inl ⟨_, Array.mem_of_getElem? hcls, hm⟩
      · exact .inr ⟨_, rfl⟩
  | cls name fields =>
    rcases Array.mem_push.1 hc with hc | rfl
    · exact .inl ⟨c', hc, hm⟩
    · exact absurd hm (Array.not_mem_empty m)
  | begin _ ih => exact (ih hc).imp_right fun ⟨_, ho⟩ => nomatch ho
  | globalScope | scope | newLabel | found | symbol | define | redefine | place | again | interned | intern | pos | line
  | emit => exact .inl ⟨c', hc, hm⟩

end Builder

end PseudoVm
