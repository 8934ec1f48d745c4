import PseudoVm.Image.Validation
/-!
# Image.WellFormed: what an image without problems is like

The checks of `Image.validate`, read as conditions on the image (`Image.WellFormed`): labels point into the code, entry
points at the entry marker of their scope, and the operands of every instruction are indices of the tables they refer
to, inside the scope that encloses the instruction.  An image without problems meets them
(`Image.isValid_iff`).
-/
namespace PseudoVm

theorem exists_mapM_forall {α β : Type} {f : α → Option β} {P : β → Prop} : ∀ l : List α,
    (∃ found, l.mapM f = some found ∧ ∀ b ∈ found, P b) ↔ ∀ a ∈ l, ∃ b, f a = some b ∧ P b
  | [] => by simp
  | a :: l => by
    rw [List.forall_mem_cons, ← exists_mapM_forall l, List.mapM_cons]
    cases f a with
    | none => simp
    | some b => cases l.mapM f <;> simp

theorem isSome_mapM {α β : Type} {f : α → Option β} {l : List α} (h : ∀ a ∈ l, (f a).isSome) : (l.mapM f).isSome := by
  obtain ⟨found, hfound, -⟩ := (@exists_mapM_forall _ _ f (fun _ => True) l).2 fun a ha => by
    obtain ⟨b, hb⟩ := Option.isSome_iff_exists.1 (h a ha)
    exact ⟨b, hb, trivial⟩
  rw [hfound]
  rfl

namespace Image

/-- A label at the entry marker of a scope that the image has. -/
structure IsEntry (image : Image) (label : LabelId) (scope : ScopeId) : Prop where
  scope_lt : scope < image.scopes.size
  marker : ∃ l i, image.labels[label]? = some l ∧ image.code[l.pc]? = some i ∧ i.op = .begin scope

/-- The operands of an instruction refer to what the image has, inside a scope that encloses it. -/
def Admits (image : Image) (scope : ScopeId) (op : Op) : Prop :=
  match op with
  | .begin id => id < image.scopes.size
  | .litStr id => id < image.strings.size
  | .globalRef slot | .globalVal slot => ∃ s, image.global? = some s ∧ slot < s.locals.length
  | .localRef slot | .localVal slot => ∃ s, image.scopes[scope]? = some s ∧ slot < s.locals.length
  | .paramRef slot | .paramVal slot | .paramPtr slot => ∃ s, image.scopes[scope]? = some s ∧ slot < s.params.length
  | .jump label | .jumpTrue label | .jumpFalse label => label < image.labels.size
  | .call label callee nargs =>
    image.IsEntry label callee ∧ ∃ s, image.scopes[callee]? = some s ∧ nargs = s.params.length
  | .objNew cls _ => cls < image.classes.size
  | .vcall cls slot _ => ∃ c, image.classes[cls]? = some c ∧ slot < c.methods.size
  | _ => True

/-- The scope that encloses the instruction at an offset. -/
def scopeAt (image : Image) (pc : Nat) : ScopeId :=
  (image.code.toList.take (pc + 1)).foldl (fun scope i => Validation.enclosing image scope i.op) image.globalScope

/-- **Every index of the image is one of the table it points into.** -/
structure WellFormed (image : Image) : Prop where
  code_ne : 0 < image.code.size
  global : image.globalScope < image.scopes.size
  labels : ∀ l ∈ image.labels, l.pc < image.code.size
  methods : ∀ c ∈ image.classes, ∀ m ∈ c.methods, image.IsEntry m.label m.scope
  code : ∀ pc i, image.code[pc]? = some i → image.Admits (image.scopeAt pc) i.op

namespace WellFormed

variable {image : Image}

theorem isSome_global? (h : image.WellFormed) : image.global?.isSome := by
  unfold global?
  rw [Array.getElem?_eq_getElem h.global]
  rfl

theorem labelPc?_lt (h : image.WellFormed) {label : LabelId} {pc : Nat} (hl : image.labelPc? label = some pc) :
    pc < image.code.size := by
  obtain ⟨l, hl', rfl⟩ := Option.map_eq_some_iff.1 hl
  exact h.labels l (Array.mem_of_getElem? hl')

end WellFormed

theorem IsEntry.labelPc? {image : Image} {label : LabelId} {scope : ScopeId} (h : image.IsEntry label scope) :
    ∃ pc i, image.labelPc? label = some pc ∧ image.code[pc]? = some i ∧ i.op = .begin scope := by
  obtain ⟨l, i, hl, hi, hop⟩ := h.marker
  exact ⟨l.pc, i, by rw [Image.labelPc?, hl]; rfl, hi, hop⟩

end Image

namespace Validation

variable {image : Image} {pc : Nat}

@[simp] theorem checkSlot_eq_nil {kind : SlotKind} {index count : Nat} :
    checkSlot pc kind index count = [] ↔ index < count := by
  unfold checkSlot
  split <;> simp_all

@[simp] theorem checkLabel_eq_nil {label : LabelId} : checkLabel image pc label = [] ↔ label < image.labels.size := by
  unfold checkLabel
  split <;> simp_all

@[simp] theorem checkScope_eq_nil {scope : ScopeId} : checkScope image pc scope = [] ↔ scope < image.scopes.size := by
  unfold checkScope
  split <;> simp_all

@[simp] theorem checkClass_eq_nil {cls : ClassId} : checkClass image pc cls = [] ↔ cls < image.classes.size := by
  unfold checkClass
  split <;> simp_all

@[simp] theorem checkMarker_eq_nil {name : String} {scope : ScopeId} {op : Op} :
    checkMarker pc name scope op = [] ↔ op = .begin scope := by
  unfold checkMarker
  split
  · rename_i marked
    by_cases h : marked = scope <;> simp [h]
  · rename_i h
    simp only [List.cons_ne_nil, false_iff]
    exact h scope

theorem checkArity_eq_nil {name : String} {scope : ScopeId} {nargs : Option Nat} :
    checkArity image pc name scope nargs = some [] ↔
      ∀ n, nargs = some n → ∃ s, image.scopes[scope]? = some s ∧ n = s.params.length := by
  cases nargs with
  | none => simp [checkArity]
  | some n =>
    simp only [checkArity, Option.map_eq_some_iff, Option.some.injEq, forall_eq']
    refine exists_congr fun s => and_congr_right fun _ => ?_
    split <;> simp_all

theorem after_eq_nil {problems : List Problem} {next : Option (List Problem)} :
    (match problems with
      | [] => next
      | problems => some problems) = some [] ↔ problems = [] ∧ next = some [] := by
  cases problems <;> simp

/-- An entry point whose label is in range passes its check exactly if it is an entry marker of the scope. -/
theorem checkEntry_eq_nil (hl : ∀ l ∈ image.labels, l.pc < image.code.size) {label : LabelId} {scope : ScopeId}
    {nargs : Option Nat} (hlabel : label < image.labels.size) : checkEntry image pc label scope nargs = some [] ↔
      (∃ l i, image.labels[label]? = some l ∧ image.code[l.pc]? = some i ∧ i.op = .begin scope) ∧
      ∀ n, nargs = some n → ∃ s, image.scopes[scope]? = some s ∧ n = s.params.length := by
  obtain ⟨l, hl'⟩ : ∃ l, image.labels[label]? = some l := ⟨_, Array.getElem?_eq_getElem hlabel⟩
  obtain ⟨i, hi⟩ : ∃ i, image.code[l.pc]? = some i :=
    ⟨_, Array.getElem?_eq_getElem (hl l (Array.mem_of_getElem? hl'))⟩
  rw [← @checkArity_eq_nil image pc l.name scope nargs]
  simp only [checkEntry, hl', hi, Option.bind_eq_bind, Option.bind_some, Option.some.injEq, exists_and_left,
    exists_eq_left']
  cases checkArity image pc l.name scope nargs <;> simp

/-- **An entry point passes its check exactly if it is one**, once no label points past the code. -/
theorem checkTarget_eq_nil (hl : ∀ l ∈ image.labels, l.pc < image.code.size) {label : LabelId} {scope : ScopeId}
    {nargs : Option Nat} : checkTarget image pc label scope nargs = some [] ↔
      image.IsEntry label scope ∧ ∀ n, nargs = some n → ∃ s, image.scopes[scope]? = some s ∧ n = s.params.length := by
  have hparts : checkTarget image pc label scope nargs = some [] ↔ label < image.labels.size ∧
      scope < image.scopes.size ∧ checkEntry image pc label scope nargs = some [] :=
    after_eq_nil.trans (and_congr checkLabel_eq_nil (after_eq_nil.trans (and_congr_left' checkScope_eq_nil)))
  rw [hparts]
  constructor
  · rintro ⟨hlabel, hscope, h⟩
    obtain ⟨hm, ha⟩ := (checkEntry_eq_nil hl hlabel).1 h
    exact ⟨⟨hscope, hm⟩, ha⟩
  · rintro ⟨he, ha⟩
    obtain ⟨l, -, h1, -⟩ := he.marker
    have hlabel : label < image.labels.size := (Array.getElem?_eq_some_iff.1 h1).1
    exact ⟨hlabel, he.scope_lt, (checkEntry_eq_nil hl hlabel).2 ⟨he.marker, ha⟩⟩

theorem checkVirtual_eq_nil {cls : ClassId} {slot : Nat} : checkVirtual image pc cls slot = some [] ↔
    ∃ c, image.classes[cls]? = some c ∧ slot < c.methods.size := by
  refine after_eq_nil.trans ?_
  rw [checkClass_eq_nil, Option.map_eq_some_iff]
  have hslot : ∀ c : Class, (if slot < c.methods.size then [] else
      [(⟨pc, .vtableSlotOutOfBounds c.name slot⟩ : Problem)]) = [] ↔ slot < c.methods.size := by
    intro c
    split <;> simp_all
  simp only [hslot]
  refine ⟨fun h => h.2, fun h => ⟨?_, h⟩⟩
  obtain ⟨c, hc, -⟩ := h
  exact (Array.getElem?_eq_some_iff.1 hc).1

theorem map_checkSlot_eq_nil {α : Type} {a : Option α} {kind : SlotKind} {slot : Nat} {count : α → Nat} :
    (a.map fun s => checkSlot pc kind slot (count s)) = some [] ↔ ∃ s, a = some s ∧ slot < count s := by
  simp

/-- **The operands of an instruction pass their check exactly if the image admits them.** -/
theorem checkOp_eq_nil (hl : ∀ l ∈ image.labels, l.pc < image.code.size) {scope : ScopeId} {op : Op} :
    checkOp image scope pc op = some [] ↔ image.Admits scope op := by
  cases op
  case litStr id =>
    simp only [checkOp, Image.Admits, Option.some.injEq]
    split <;> simp_all
  case begin id => simp [checkOp, Image.Admits]
  case globalRef | globalVal | localRef | localVal | paramRef | paramVal | paramPtr =>
    simp only [checkOp, Image.Admits, map_checkSlot_eq_nil]
  case jump | jumpTrue | jumpFalse | objNew => simp [checkOp, Image.Admits]
  case call label callee nargs =>
    simp only [checkOp, Image.Admits, checkTarget_eq_nil hl, Option.some.injEq, forall_eq']
  case vcall cls slot nargs => exact checkVirtual_eq_nil
  all_goals simp [checkOp, Image.Admits]

theorem checkCode_eq_nil : ∀ (code : List Instruction) (scope : ScopeId) (pc : Nat),
    checkCode image scope pc code = some [] ↔ ∀ k i, code[k]? = some i →
      checkOp image ((code.take (k + 1)).foldl (fun s i => enclosing image s i.op) scope) (pc + k) i.op = some []
  | [], scope, pc => by simp [checkCode]
  | i :: rest, scope, pc => by
    have hsplit : checkCode image scope pc (i :: rest) = some [] ↔
        checkOp image (enclosing image scope i.op) pc i.op = some [] ∧
          checkCode image (enclosing image scope i.op) (pc + 1) rest = some [] := by
      rw [checkCode]
      cases checkOp image (enclosing image scope i.op) pc i.op <;>
        cases checkCode image (enclosing image scope i.op) (pc + 1) rest <;> simp
    rw [hsplit, checkCode_eq_nil rest]
    constructor
    · rintro ⟨h0, h⟩ k j hj
      cases k with
      | zero =>
        cases hj
        exact h0
      | succ k =>
        have := h k j hj
        rwa [Nat.add_right_comm] at this
    · intro h
      refine ⟨h 0 i rfl, fun k j hj => ?_⟩
      rw [Nat.add_right_comm]
      exact h (k + 1) j hj

theorem checkLabels_eq_nil : checkLabels image = [] ↔ ∀ l ∈ image.labels, l.pc < image.code.size := by
  unfold checkLabels
  simp only [List.flatMap_eq_nil_iff, Array.mem_toList_iff, ite_eq_left_iff, List.cons_ne_nil, imp_false,
    Decidable.not_not]

theorem checkMethods_eq_nil (hl : ∀ l ∈ image.labels, l.pc < image.code.size) :
    checkMethods image = some [] ↔ ∀ c ∈ image.classes, ∀ m ∈ c.methods, image.IsEntry m.label m.scope := by
  have hone : ∀ m : Method, (∃ b, checkTarget image 0 m.label m.scope none = some b ∧ b = []) ↔
      image.IsEntry m.label m.scope := by
    intro m
    rw [exists_eq_right, checkTarget_eq_nil hl]
    simp
  have hclass : ∀ c : Class, (∃ found, (c.methods.toList.mapM fun m => checkTarget image 0 m.label m.scope none) =
      some found ∧ ∀ b ∈ found, b = []) ↔ ∀ m ∈ c.methods, image.IsEntry m.label m.scope := by
    intro c
    rw [exists_mapM_forall]
    simp only [hone, Array.mem_toList_iff]
  have hall : checkMethods image = some [] ↔ ∃ found, (image.classes.toList.mapM fun c =>
      c.methods.toList.mapM fun m => checkTarget image 0 m.label m.scope none) = some found ∧
        ∀ bs ∈ found, ∀ b ∈ bs, b = [] := by
    unfold checkMethods
    cases image.classes.toList.mapM fun c => c.methods.toList.mapM fun m => checkTarget image 0 m.label m.scope none
    · simp
    · simp only [Option.bind_eq_bind, Option.bind_some, Option.pure_def, Option.some.injEq, List.flatten_eq_nil_iff,
        List.mem_flatten, exists_eq_left', forall_exists_index, and_imp]
      exact ⟨fun h bs hbs b hb => h b bs hbs hb, fun h b bs hbs hb => h bs hbs b hb⟩
  rw [hall, exists_mapM_forall]
  simp only [hclass, Array.mem_toList_iff]

end Validation

open Validation in
/-- **An image has no problems exactly if it is well formed.** -/
theorem Image.validate_eq_nil {image : Image} : image.validate = some [] ↔ image.WellFormed := by
  unfold Image.validate
  dsimp only
  by_cases hg : image.globalScope < image.scopes.size
  · rw [if_pos hg]
    have hparts : (do
        let methods ← checkMethods image
        let code ← checkCode image image.globalScope 0 image.code.toList
        return (if image.code.isEmpty then [(⟨0, .emptyProgram⟩ : Problem)] else []) ++ checkLabels image ++ methods
          ++ code) = some [] ↔ 0 < image.code.size ∧ checkLabels image = [] ∧ checkMethods image = some [] ∧
          checkCode image image.globalScope 0 image.code.toList = some [] := by
      cases checkMethods image <;> cases checkCode image image.globalScope 0 image.code.toList <;>
        simp [Nat.pos_iff_ne_zero]
    rw [hparts, checkLabels_eq_nil]
    constructor
    · rintro ⟨hc, hl, hm, hcode⟩
      refine ⟨hc, hg, hl, (checkMethods_eq_nil hl).1 hm, fun pc i hi => ?_⟩
      have := (checkCode_eq_nil _ _ _).1 hcode pc i (by rw [Array.getElem?_toList]; exact hi)
      exact (checkOp_eq_nil hl).1 this
    · rintro ⟨hc, -, hl, hm, hcode⟩
      refine ⟨hc, hl, (checkMethods_eq_nil hl).2 hm, (checkCode_eq_nil _ _ _).2 fun pc i hi => ?_⟩
      rw [Array.getElem?_toList] at hi
      exact (checkOp_eq_nil hl).2 (hcode pc i hi)
  · rw [if_neg hg]
    simp only [Option.some.injEq, List.append_eq_nil_iff, List.cons_ne_nil, and_false, false_iff]
    exact fun h => hg h.global

theorem Image.isValid_iff {image : Image} : image.isValid = true ↔ image.WellFormed := by
  rw [← Image.validate_eq_nil, Image.isValid, beq_iff_eq]

end PseudoVm
