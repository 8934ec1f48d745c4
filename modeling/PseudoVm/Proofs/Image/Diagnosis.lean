import PseudoVm.Proofs.Image.WellFormed
/-!
# Image.Diagnosis: what the validator finds

Every image gets an answer, with its problems in the order of their offsets (`Image.exists_validate`).  A problem is
never made up: an index that is reported is one that the image carries and its tables do not have, and a label that is
reported lies past the code (`Image.Grounds`).

`Image.Regular` says what an image has to be like without a word about how it is checked; above all, the scope that
encloses an instruction is that of the nearest entry marker, whatever comes before it (`Image.Encloses`).  The validator
finds nothing exactly in these images (`Image.validate_exact`).
-/
namespace PseudoVm

/-- An index, and the table it points into. -/
inductive TableIndex
  | label (id : LabelId)
  | scope (id : ScopeId)
  | cls (id : ClassId)
  | string (id : StringId)
  deriving DecidableEq, Repr

/-- The indices that an instruction carries.  Slots belong to frames and are not among them. -/
def Op.indices : Op → List TableIndex
  | .litStr id => [.string id]
  | .begin scope => [.scope scope]
  | .jump label | .jumpTrue label | .jumpFalse label => [.label label]
  | .call label scope _ => [.label label, .scope scope]
  | .objNew cls _ | .vcall cls _ _ => [.cls cls]
  | _ => []

/-- The indices that a virtual method carries. -/
def Method.indices (m : Method) : List TableIndex := [.label m.label, .scope m.scope]

namespace Image

variable {image : Image} {pc : Nat}

/-- Whether a table has an entry at an index. -/
def Has (image : Image) : TableIndex → Prop
  | .label id => id < image.labels.size
  | .scope id => id < image.scopes.size
  | .cls id => id < image.classes.size
  | .string id => id < image.strings.size

/-- The indices that an image carries anywhere. -/
inductive Carries (image : Image) : TableIndex → Prop
  | program : Carries image (.scope image.globalScope)
  | code {i : Instruction} {index : TableIndex} (hi : i ∈ image.code) (h : index ∈ i.op.indices) : Carries image index
  | methods {c : Class} {m : Method} {index : TableIndex} (hc : c ∈ image.classes) (hm : m ∈ c.methods)
    (h : index ∈ m.indices) : Carries image index

/-- An index that an image carries although its table has no entry there. -/
def Dangles (image : Image) (index : TableIndex) : Prop := image.Carries index ∧ ¬ image.Has index

/-- **What stands behind a problem**: an index that is reported is one that dangles, and a label past the code is one of
the image's. -/
def Grounds (image : Image) : ProblemKind → Prop
  | .badGlobalScope id | .scopeIndexOutOfBounds id _ => image.Dangles (.scope id)
  | .labelIndexOutOfBounds id _ => image.Dangles (.label id)
  | .stringIndexOutOfBounds id _ => image.Dangles (.string id)
  | .classIndexOutOfBounds id _ => image.Dangles (.cls id)
  | .labelOutOfBounds name target _ => ⟨name, target⟩ ∈ image.labels ∧ image.code.size ≤ target
  | _ => True

end Image

namespace Validation

variable {image : Image} {pc : Nat} {scope : ScopeId}

/-! ## One check -/

/-- A check that answers, with problems at an offset alone that all have their grounds. -/
def Finds (image : Image) (pc : Nat) (found : Option (List Problem)) : Prop :=
  ∃ problems, found = some problems ∧ ∀ p ∈ problems, p.offset = pc ∧ image.Grounds p.kind

theorem Finds.nil : Finds image pc (some []) := ⟨[], rfl, fun _ h => nomatch h⟩

theorem Finds.one {kind : ProblemKind} (h : image.Grounds kind) : Finds image pc (some [⟨pc, kind⟩]) := by
  refine ⟨_, rfl, fun p hp => ?_⟩
  rw [List.mem_singleton.1 hp]
  exact ⟨rfl, h⟩

theorem Finds.unless {c : Prop} [Decidable c] {kind : ProblemKind} (h : ¬ c → image.Grounds kind) :
    Finds image pc (some (if c then [] else [⟨pc, kind⟩])) := by
  split
  · exact .nil
  · rename_i hc
    exact .one (h hc)

theorem Finds.append {problems : List Problem} {found : Option (List Problem)} (h : Finds image pc (some problems))
    (hf : Finds image pc found) : Finds image pc (do return problems ++ (← found)) := by
  obtain ⟨_, he, h⟩ := h
  obtain ⟨more, rfl, hm⟩ := hf
  cases he
  refine ⟨problems ++ more, rfl, fun p hp => ?_⟩
  rcases List.mem_append.1 hp with hp | hp
  · exact h p hp
  · exact hm p hp

theorem Finds.after {next : Option (List Problem)} : ∀ {problems : List Problem}, Finds image pc (some problems) →
    (problems = [] → Finds image pc next) → Finds image pc (match problems with
      | [] => next
      | problems => some problems)
  | [], _, hn => hn rfl
  | _ :: _, h, _ => h

theorem finds_checkLabel {label : LabelId} (h : image.Carries (.label label)) :
    Finds image pc (some (checkLabel image pc label)) := .unless fun hl => ⟨h, hl⟩

theorem finds_checkScope (h : image.Carries (.scope scope)) : Finds image pc (some (checkScope image pc scope)) :=
  .unless fun hs => ⟨h, hs⟩

theorem finds_checkClass {cls : ClassId} (h : image.Carries (.cls cls)) :
    Finds image pc (some (checkClass image pc cls)) := .unless fun hc => ⟨h, hc⟩

theorem finds_checkSlot {α : Type} {a : Option α} {s : α} (ha : a = some s) {kind : SlotKind} {slot : Nat}
    {count : α → Nat} : Finds image pc (a.map fun s => checkSlot pc kind slot (count s)) := by
  rw [ha]
  exact .unless fun _ => trivial

theorem finds_checkMarker {name : String} {op : Op} : Finds image pc (some (checkMarker pc name scope op)) := by
  unfold checkMarker
  split
  · exact .unless fun _ => trivial
  · exact .one trivial

theorem finds_checkArity {name : String} (hs : scope < image.scopes.size) :
    ∀ {nargs : Option Nat}, Finds image pc (checkArity image pc name scope nargs)
  | none => .nil
  | some n => by
    rw [checkArity, Array.getElem?_eq_getElem hs]
    exact .unless fun _ => trivial

/-- **An entry point is only looked at once its label and scope are known to be there.** -/
theorem finds_checkTarget {label : LabelId} {nargs : Option Nat} (hl : image.Carries (.label label))
    (hs : image.Carries (.scope scope)) : Finds image pc (checkTarget image pc label scope nargs) := by
  refine (finds_checkLabel hl).after fun hlabel => (finds_checkScope hs).after fun hscope => ?_
  rw [checkLabel_eq_nil] at hlabel
  rw [checkScope_eq_nil] at hscope
  rw [checkEntry, Array.getElem?_eq_getElem hlabel, Option.bind_eq_bind, Option.bind_some]
  split
  · exact .nil
  · exact finds_checkMarker.append (finds_checkArity hscope)

theorem finds_checkVirtual {cls : ClassId} {slot : Nat} (h : image.Carries (.cls cls)) :
    Finds image pc (checkVirtual image pc cls slot) := by
  refine (finds_checkClass h).after fun hcls => ?_
  rw [checkClass_eq_nil] at hcls
  rw [Array.getElem?_eq_getElem hcls]
  exact .unless fun _ => trivial

/-- **The check of an instruction answers inside any scope that exists**, one case for each way to carry an index. -/
theorem finds_checkOp (hg : image.globalScope < image.scopes.size) (hs : scope < image.scopes.size) {op : Op}
    (hc : ∀ index ∈ op.indices, image.Carries index) : Finds image pc (checkOp image scope pc op) := by
  cases op
  case litStr id =>
    exact .unless fun hid => ⟨hc _ List.mem_cons_self, hid⟩
  case begin => exact finds_checkScope (hc _ List.mem_cons_self)
  case globalRef | globalVal => exact finds_checkSlot (Array.getElem?_eq_getElem hg)
  case localRef | localVal | paramRef | paramVal | paramPtr => exact finds_checkSlot (Array.getElem?_eq_getElem hs)
  case jump | jumpTrue | jumpFalse => exact finds_checkLabel (hc _ List.mem_cons_self)
  case call => exact finds_checkTarget (hc _ List.mem_cons_self) (hc _ (List.mem_cons_of_mem _ List.mem_cons_self))
  case objNew => exact finds_checkClass (hc _ List.mem_cons_self)
  case vcall => exact finds_checkVirtual (hc _ List.mem_cons_self)
  all_goals exact .nil

/-! ## All checks -/

theorem enclosing_lt (hs : scope < image.scopes.size) (op : Op) : enclosing image scope op < image.scopes.size := by
  unfold enclosing
  split
  · split
    · assumption
    · exact hs
  · exact hs

/-- **The problems of the code come in its order**, for the scope that is carried along always exists. -/
theorem exists_checkCode (hg : image.globalScope < image.scopes.size) : ∀ (code : List Instruction),
    (∀ i ∈ code, i ∈ image.code) → ∀ (scope : ScopeId) (pc : Nat), scope < image.scopes.size →
    ∃ problems, checkCode image scope pc code = some problems ∧ problems.Pairwise (fun p q => p.offset ≤ q.offset) ∧
      ∀ p ∈ problems, pc ≤ p.offset ∧ image.Grounds p.kind
  | [], _, _, _, _ => ⟨[], rfl, .nil, fun _ h => nomatch h⟩
  | i :: rest, hcode, scope, pc, hs => by
    have hinner := enclosing_lt hs i.op
    obtain ⟨here, hhere, hat⟩ : Finds image pc (checkOp image (enclosing image scope i.op) pc i.op) :=
      finds_checkOp hg hinner fun _ h => .code (hcode i List.mem_cons_self) h
    obtain ⟨after, hafter, hsorted, hlater⟩ := exists_checkCode hg rest
      (fun j hj => hcode j (List.mem_cons_of_mem i hj)) _ (pc + 1) hinner
    refine ⟨here ++ after, ?_, List.pairwise_append.2 ⟨?_, hsorted, fun p hp q hq => ?_⟩, fun p hp => ?_⟩
    · rw [checkCode, hhere, hafter]
      rfl
    · exact List.pairwise_of_forall_mem_list fun p hp q hq => Nat.le_of_eq ((hat p hp).1.trans (hat q hq).1.symm)
    · rw [(hat p hp).1]
      exact Nat.le_of_succ_le (hlater q hq).1
    · rcases List.mem_append.1 hp with hp | hp
      · exact ⟨Nat.le_of_eq (hat p hp).1.symm, (hat p hp).2⟩
      · exact ⟨Nat.le_of_succ_le (hlater p hp).1, (hlater p hp).2⟩

theorem finds_checkLabels : Finds image 0 (some (checkLabels image)) := by
  refine ⟨_, rfl, fun p hp => ?_⟩
  obtain ⟨l, hl, hp⟩ := List.mem_flatMap.1 hp
  split at hp
  · cases hp
  · rename_i hpc
    rw [List.mem_singleton.1 hp]
    exact ⟨rfl, Array.mem_toList_iff.1 hl, Nat.le_of_not_lt hpc⟩

theorem finds_checkMethods : Finds image 0 (checkMethods image) := by
  have hclass : ∀ c ∈ image.classes.toList, ∃ found, (c.methods.toList.mapM fun m =>
      checkTarget image 0 m.label m.scope none) = some found ∧
        ∀ problems ∈ found, ∀ p ∈ problems, p.offset = 0 ∧ image.Grounds p.kind := by
    intro c hc
    refine (exists_mapM_forall _).2 fun m hm => ?_
    have hcarries : ∀ index ∈ m.indices, image.Carries index := fun _ h =>
      .methods (Array.mem_toList_iff.1 hc) (Array.mem_toList_iff.1 hm) h
    exact finds_checkTarget (hcarries _ List.mem_cons_self) (hcarries _ (List.mem_cons_of_mem _ List.mem_cons_self))
  obtain ⟨found, hfound, h⟩ := (exists_mapM_forall _).2 hclass
  refine ⟨found.flatten.flatten, ?_, fun p hp => ?_⟩
  · rw [checkMethods, hfound]
    rfl
  · obtain ⟨problems, hproblems, hp⟩ := List.mem_flatten.1 hp
    obtain ⟨ofClass, hofClass, hproblems⟩ := List.mem_flatten.1 hproblems
    exact h ofClass hofClass problems hproblems p hp

end Validation

open Validation in
/-- **Every image gets an answer**: its problems in the order of their offsets, each with its grounds. -/
theorem Image.exists_validate (image : Image) : ∃ problems, image.validate = some problems ∧
    problems.Pairwise (fun p q => p.offset ≤ q.offset) ∧ ∀ p ∈ problems, image.Grounds p.kind := by
  have hempty : Finds image 0 (some (if image.code.isEmpty then [⟨0, .emptyProgram⟩] else [])) := by
    split
    · exact .one trivial
    · exact .nil
  have hsame : ∀ {problems : List Problem}, (∀ p ∈ problems, p.offset = 0 ∧ image.Grounds p.kind) →
      problems.Pairwise (fun p q => p.offset ≤ q.offset) := fun h =>
    List.pairwise_of_forall_mem_list fun p hp q hq => Nat.le_of_eq ((h p hp).1.trans (h q hq).1.symm)
  unfold Image.validate
  dsimp only
  by_cases hg : image.globalScope < image.scopes.size
  · rw [if_pos hg]
    obtain ⟨methods, hmethods, hm⟩ := finds_checkMethods
    obtain ⟨code, hcode, hsorted, hc⟩ := exists_checkCode hg image.code.toList (fun _ h => Array.mem_toList_iff.1 h)
      image.globalScope 0 hg
    -- what is found in the tables is at offset 0, before everything else
    obtain ⟨_, htables, ht⟩ := (hempty.append finds_checkLabels).append ⟨methods, rfl, hm⟩
    cases htables
    rw [hmethods, hcode]
    refine ⟨_, rfl, List.pairwise_append.2 ⟨hsame ht, hsorted, fun p hp q _ => ?_⟩, fun p hp => ?_⟩
    · rw [(ht p hp).1]
      exact Nat.zero_le _
    · rcases List.mem_append.1 hp with hp | hp
      · exact (ht p hp).2
      · exact (hc p hp).2
  · rw [if_neg hg]
    have hglobal : image.Grounds (.badGlobalScope image.globalScope) := ⟨.program, hg⟩
    obtain ⟨problems, hp, h⟩ := hempty.append (.one hglobal)
    exact ⟨problems, hp, hsame h, fun p hp => (h p hp).2⟩

namespace Image

variable {image : Image} {pc : Nat}

/-! ## Enclosing scopes -/

/-- **The scope that encloses an instruction**: that of the nearest entry marker at or before it, else that of the whole
program. -/
inductive Encloses (image : Image) (pc : Nat) : ScopeId → Prop
  | marker {k : Nat} {i : Instruction} {scope : ScopeId} (hk : k ≤ pc) (hi : image.code[k]? = some i)
    (hop : i.op = .begin scope)
    (hlast : ∀ j i', k < j → j ≤ pc → image.code[j]? = some i' → ∀ s, i'.op ≠ .begin s) : Encloses image pc scope
  | program (hnone : ∀ j i, j ≤ pc → image.code[j]? = some i → ∀ s, i.op ≠ .begin s) :
    Encloses image pc image.globalScope

theorem Encloses.unique {scope scope' : ScopeId} (h : image.Encloses pc scope) (h' : image.Encloses pc scope') :
    scope = scope' := by
  cases h with
  | program hnone =>
    cases h' with
    | program => rfl
    | marker hk hi hop => exact absurd hop (hnone _ _ hk hi _)
  | @marker k i _ hk hi hop hlast =>
    cases h' with
    | program hnone => exact absurd hop (hnone _ _ hk hi _)
    | @marker k' i' _ hk' hi' hop' hlast' =>
      rcases Nat.lt_trichotomy k k' with hlt | rfl | hlt
      · exact absurd hop' (hlast _ _ hlt hk' hi' _)
      · rw [hi] at hi'
        cases hi'
        rw [hop] at hop'
        exact Op.begin.inj hop'
      · exact absurd hop (hlast' _ _ hlt hk hi _)

theorem encloses_of_marker {i : Instruction} {scope : ScopeId} (hi : image.code[pc]? = some i)
    (hop : i.op = .begin scope) : image.Encloses pc scope :=
  .marker (Nat.le_refl pc) hi hop fun _ _ hlt hle => absurd hle (Nat.not_le_of_lt hlt)

theorem Encloses.succ {i : Instruction} {scope : ScopeId} (h : image.Encloses pc scope)
    (hi : image.code[pc + 1]? = some i) (hn : ∀ s, i.op ≠ .begin s) : image.Encloses (pc + 1) scope := by
  have hnext : ∀ {j i'}, j = pc + 1 → image.code[j]? = some i' → ∀ s, i'.op ≠ .begin s := by
    rintro _ i' rfl hi'
    rw [hi] at hi'
    cases hi'
    exact hn
  cases h with
  | marker hk hk' hop hlast =>
    refine .marker (Nat.le_succ_of_le hk) hk' hop fun j i' hlt hle hj => ?_
    rcases Nat.le_succ_iff.1 hle with hle | he
    · exact hlast j i' hlt hle hj
    · exact hnext he hj
  | program hnone =>
    refine .program fun j i' hle hj => ?_
    rcases Nat.le_succ_iff.1 hle with hle | he
    · exact hnone j i' hle hj
    · exact hnext he hj

theorem enclosing_of_marker {scope id : ScopeId} (h : id < image.scopes.size) :
    Validation.enclosing image scope (.begin id) = id := if_pos h

theorem enclosing_of_ne {scope : ScopeId} {op : Op} (hn : ∀ s, op ≠ .begin s) :
    Validation.enclosing image scope op = scope := by
  unfold Validation.enclosing
  split
  · exact absurd rfl (hn _)
  · rfl

theorem scopeAt_zero_eq {i : Instruction} (hi : image.code[0]? = some i) :
    image.scopeAt 0 = Validation.enclosing image image.globalScope i.op := by
  have hi' : image.code.toList[0]? = some i := by rw [Array.getElem?_toList]; exact hi
  rw [scopeAt, List.take_add_one, hi']
  rfl

theorem scopeAt_succ_eq {i : Instruction} (hi : image.code[pc + 1]? = some i) :
    image.scopeAt (pc + 1) = Validation.enclosing image (image.scopeAt pc) i.op := by
  have hi' : image.code.toList[pc + 1]? = some i := by rw [Array.getElem?_toList]; exact hi
  rw [scopeAt, List.take_add_one, hi', List.foldl_append]
  rfl

/-- **The scope that is carried along is the one that encloses**, once every entry marker names a scope that exists. -/
theorem encloses_scopeAt (hb : ∀ i ∈ image.code, ∀ s, i.op = .begin s → s < image.scopes.size) :
    ∀ (pc : Nat) {i : Instruction}, image.code[pc]? = some i → image.Encloses pc (image.scopeAt pc)
  | pc, i, hi => by
    by_cases hm : ∃ s, i.op = .begin s
    · obtain ⟨s, hop⟩ := hm
      have henc : image.scopeAt pc = s := by
        have hs := hb i (Array.mem_of_getElem? hi) s hop
        cases pc with
        | zero => rw [scopeAt_zero_eq hi, hop, enclosing_of_marker hs]
        | succ pc => rw [scopeAt_succ_eq hi, hop, enclosing_of_marker hs]
      rw [henc]
      exact encloses_of_marker hi hop
    · have hn : ∀ s, i.op ≠ .begin s := fun s hop => hm ⟨s, hop⟩
      cases pc with
      | zero =>
        rw [scopeAt_zero_eq hi, enclosing_of_ne hn]
        refine .program fun j i' hj hi' => ?_
        rw [Nat.le_zero.1 hj, hi] at hi'
        cases hi'
        exact hn
      | succ pc =>
        rw [scopeAt_succ_eq hi, enclosing_of_ne hn]
        have hlt : pc < image.code.size := Nat.lt_of_succ_lt (Array.getElem?_eq_some_iff.1 hi).1
        exact (encloses_scopeAt hb pc (Array.getElem?_eq_getElem hlt)).succ hi hn

/-! ## Acceptance -/

/-- **What an image has to be like**, said without a word about how it is checked. -/
structure Regular (image : Image) : Prop where
  code_ne : 0 < image.code.size
  global : image.globalScope < image.scopes.size
  labels : ∀ l ∈ image.labels, l.pc < image.code.size
  methods : ∀ c ∈ image.classes, ∀ m ∈ c.methods, image.IsEntry m.label m.scope
  operands : ∀ pc i, image.code[pc]? = some i → ∃ scope, image.Encloses pc scope ∧ image.Admits scope i.op

/-- An image is well formed exactly if it is regular: the two differ in how they find the enclosing scope. -/
theorem wellFormed_iff_regular : image.WellFormed ↔ image.Regular := by
  -- either way the markers are admitted, and a marker is admitted only if its scope exists
  have hmarkers : (∀ (pc : Nat) (i : Instruction), image.code[pc]? = some i → ∃ scope, image.Admits scope i.op) →
      ∀ i ∈ image.code, ∀ s, i.op = .begin s → s < image.scopes.size := by
    intro h i hi s hop
    obtain ⟨pc, hpc⟩ := Array.getElem?_of_mem hi
    obtain ⟨scope, ha⟩ := h pc i hpc
    rw [hop] at ha
    exact ha
  constructor
  · intro h
    have hb := hmarkers fun pc i hi => ⟨_, h.code pc i hi⟩
    exact ⟨h.code_ne, h.global, h.labels, h.methods, fun pc i hi => ⟨_, encloses_scopeAt hb pc hi, h.code pc i hi⟩⟩
  · intro h
    have hb := hmarkers fun pc i hi => (h.operands pc i hi).imp fun _ ha => ha.2
    refine ⟨h.code_ne, h.global, h.labels, h.methods, fun pc i hi => ?_⟩
    obtain ⟨scope, he, ha⟩ := h.operands pc i hi
    rw [(encloses_scopeAt hb pc hi).unique he]
    exact ha

/-- **The validator accepts exactly the regular images.**  Whatever image it is given it answers, so it indexes no table
out of range; it finds nothing exactly if the image is regular; and what it finds comes in the order of the offsets. -/
theorem validate_exact (image : Image) : ∃ problems, image.validate = some problems ∧
    (problems = [] ↔ image.Regular) ∧ problems.Pairwise fun p q => p.offset ≤ q.offset := by
  obtain ⟨problems, h, hsorted, -⟩ := image.exists_validate
  refine ⟨problems, h, ?_, hsorted⟩
  rw [← wellFormed_iff_regular, ← validate_eq_nil, h, Option.some.injEq]

end Image

end PseudoVm
