import PseudoVm.Proofs.Image.BuildStep
/-!
# Image.BuildResult: what a code generator gets for its operations

The builder agrees with the record of the operations on it: at first (`Builder.follows_new`), after every operation
(`Builder.Follows.step`), and so after all of them (`Builder.Follows.run?`).  Operations that name only indices they
were given are all carried out (`Builder.Owns.exists_run?`).  Whether the image can be finished, with which fault it
fails, and what is in it is then a matter of the record alone (`Builder.finish_exact`).
-/
namespace PseudoVm

namespace Builder

variable {b b' : Builder} {o : Operation} {a : Answer} {r : Record}

/-! ## What the builder owes to its record -/

/-- The code is what was emitted. -/
structure CodeOf (r : Record) (b : Builder) : Prop where
  pos : b.pos = r.position
  ops : b.code.toList.map (·.op) = r.emitted
  code : ∀ past x op, past ++ [x] <+: r → x.1.emits? = some op →
    b.code[(Record.emitted past).length]? = some ⟨Record.position past, op⟩

theorem CodeOf.size (h : CodeOf r b) : b.code.size = r.emitted.length := by
  rw [← h.ops, List.length_map, Array.length_toList]

theorem CodeOf.step (h : CodeOf r b) (ho : Step b o a b') : CodeOf (r ++ [(o, a)]) b' := by
  obtain ⟨hcode, hpos⟩ := ho.code
  refine ⟨?_, ?_, fun past x op hx hop => ?_⟩
  · rw [hpos, h.pos, Record.position_concat]
  · rw [hcode, List.map_append, h.ops, Record.emitted_concat]
    cases o.emits? <;> rfl
  · rw [← Array.getElem?_toList, hcode]
    rcases Record.prefix_concat.1 hx with ⟨rfl, rfl⟩ | hx
    · rw [hop, ← h.size, ← h.pos, ← Array.length_toList]
      exact List.getElem?_concat_length
    · have hold := h.code past x op hx hop
      rw [← Array.getElem?_toList] at hold
      rw [List.getElem?_append_left (List.getElem?_eq_some_iff.1 hold).1]
      exact hold

/-- The labels are those that were handed out, and they stand where they were first placed. -/
structure LabelsOf (r : Record) (b : Builder) : Prop where
  names : ∀ id name, r.Names id name ↔ b.nameOf? id = some name
  placed : ∀ id pc, r.PlacesAt id pc ↔ b.pcOf? id = some pc
  knows : ∀ name, r.Knows name ↔ (b.symbols.lookup name).isSome
  symbols : ∀ name id, b.symbols.lookup name = some id → b.nameOf? id = some name

theorem LabelsOf.places (h : LabelsOf r b) {id : LabelId} : r.Places id ↔ (b.pcOf? id).isSome := by
  rw [Record.places_iff, Option.isSome_iff_exists]
  exact exists_congr fun pc => h.placed id pc

theorem LabelsOf.step (h : LabelsOf r b) (hs : b.code.size = r.emitted.length) (ho : Step b o a b') :
    LabelsOf (r ++ [(o, a)]) b' := by
  have hname := ho.nameOf? h.symbols
  refine ⟨fun id name => ?_, fun id pc => ?_, fun name => ?_, fun name id hl => ?_⟩
  · rw [Record.names_concat, h.names, hname]
  · have hnot : ¬ r.Places id ↔ b.pcOf? id = none := by rw [h.places, Option.not_isSome_iff_eq_none]
    rw [Record.placesAt_concat, h.placed, ho.pcOf?, hnot, hs]
  · rw [Record.knows_concat, h.knows]
    rcases ho.lookup name with ⟨he, hne⟩ | ⟨heq, id, hl, -⟩
    · rw [he]
      exact ⟨fun hn => hn.elim (fun hn => hn) fun hn => absurd hn hne, .inl⟩
    · rw [hl]
      exact ⟨fun _ => rfl, fun _ => .inr heq⟩
  · -- a symbol keeps its label, or has just got the one that was answered
    rcases ho.lookup name with ⟨he, -⟩ | ⟨heq, id', hl', ha⟩
    · exact (hname id name).2 (.inl (h.symbols name id (he ▸ hl)))
    · rw [hl] at hl'
      cases hl'
      refine (hname id name).2 (.inr ⟨?_, ha⟩)
      cases o <;> first | exact heq | cases heq

theorem complaint?_of_places? {label : LabelId} (ho : o.places? = some label) :
    b.complaint? o = (b.pcOf? label).bind fun _ => (b.nameOf? label).map .labelPlacedTwice := by
  cases o <;> cases ho <;> rfl

theorem isSome_nameOf? {label : LabelId} (h : (b.pcOf? label).isSome) : (b.nameOf? label).isSome := by
  unfold pcOf? at h
  unfold nameOf?
  cases hl : b.labels[label]? with
  | none => rw [hl, Option.map_none, ite_self] at h; cases h
  | some l => rfl

/-- **An operation is remembered for what is wrong with it.** -/
theorem LabelsOf.complaint?_eq_some (h : LabelsOf r b) {e : BuildError} : b.complaint? o = some e ↔ r.Fault o e := by
  constructor
  · intro hc
    cases hp : o.places? with
    | some label =>
      rw [complaint?_of_places? hp, Option.bind_eq_some_iff] at hc
      obtain ⟨pc, hpc, hc⟩ := hc
      obtain ⟨name, hname, rfl⟩ := Option.map_eq_some_iff.1 hc
      exact .again hp (h.places.2 (by rw [hpc]; rfl)) ((h.names _ _).2 hname)
    | none =>
      cases o with
      | defineSymbol name =>
        obtain ⟨id, hid, rfl⟩ := Option.map_eq_some_iff.1 hc
        exact .duplicate ((h.knows name).2 (by rw [hid]; rfl))
      | place | begin => cases hp
      | globalScope | scope | newLabel | symbol | intern | cls | method | pos | line | emit => cases hc
  · intro hf
    cases hf with
    | duplicate hk =>
      obtain ⟨id, hid⟩ := Option.isSome_iff_exists.1 ((h.knows _).1 hk)
      rw [complaint?, hid]
      rfl
    | again hp hpl hn =>
      obtain ⟨pc, hpc⟩ := Option.isSome_iff_exists.1 (h.places.1 hpl)
      rw [complaint?_of_places? hp, hpc, (h.names _ _).1 hn]
      rfl

theorem LabelsOf.complaint?_eq_none (h : LabelsOf r b) : b.complaint? o = none ↔
    (∀ name, o = .defineSymbol name → ¬ r.Knows name) ∧ ∀ id, o.places? = some id → ¬ r.Places id := by
  rw [Option.eq_none_iff_forall_ne_some]
  constructor
  · intro hc
    refine ⟨?_, fun id hp hpl => ?_⟩
    · rintro name rfl hk
      exact hc _ (h.complaint?_eq_some.2 (.duplicate hk))
    · obtain ⟨name, hn⟩ := Option.isSome_iff_exists.1 (isSome_nameOf? (h.places.1 hpl))
      exact hc _ (h.complaint?_eq_some.2 (.again hp hpl ((h.names id name).2 hn)))
  · rintro ⟨hd, hp⟩ e hc
    cases h.complaint?_eq_some.1 hc with
    | duplicate hk => exact hd _ rfl hk
    | again ho hpl _ => exact hp _ ho hpl

/-- The faults are remembered, the first one first. -/
structure FaultsOf (r : Record) (b : Builder) : Prop where
  faultless : b.errors.toList = [] ↔ r.DefinesOnce ∧ r.PlacesOnce
  first : ∀ e, b.errors.toList.head? = some e ↔ r.FirstFault e

theorem FaultsOf.step (h : FaultsOf r b) (hl : LabelsOf r b) (ho : Step b o a b') :
    FaultsOf (r ++ [(o, a)]) b' := by
  have herrors := ho.errors
  refine ⟨?_, fun e => ?_⟩
  · rw [herrors, List.append_eq_nil_iff, h.faultless, Option.toList_eq_nil_iff, hl.complaint?_eq_none,
      Record.definesOnce_concat, Record.placesOnce_concat, and_and_and_comm]
  · -- a new fault comes first only if there was none
    rw [Record.firstFault_concat, ← h.first, ← hl.complaint?_eq_some, ← and_assoc, ← h.faultless, herrors,
      List.head?_append]
    cases b.errors.toList with
    | nil => cases b.complaint? o <;> simp
    | cons first rest => simp

/-- The strings that were interned stand where their interning said. -/
def TextsOf (r : Record) (b : Builder) : Prop :=
  ∀ text a, (.intern text, a) ∈ r → ∃ id, a = .index (.string id) ∧ b.strings[id]? = some text

theorem TextsOf.step (h : TextsOf r b) (ho : Step b o a b') : TextsOf (r ++ [(o, a)]) b' := by
  obtain ⟨hkept, hi⟩ := ho.strings
  intro text a' hx
  rcases List.mem_append.1 hx with hx | hx
  · obtain ⟨id, ha, hid⟩ := h text a' hx
    exact ⟨id, ha, hkept id text hid⟩
  · cases List.mem_singleton.1 hx
    exact hi text rfl

/-- The indices that were handed out have entries, and the methods of classes are those that were added. -/
structure TablesOf (r : Record) (b : Builder) : Prop where
  global : 0 < b.scopes.size
  given : ∀ index, r.Gives index → b.Has index
  methods : ∀ c ∈ b.classes, ∀ m ∈ c.methods, ∃ cls a, (.method cls m, a) ∈ r

theorem TablesOf.step (h : TablesOf r b) (hl : LabelsOf r b) (ho : Step b o a b') :
    TablesOf (r ++ [(o, a)]) b' := by
  have hg : b.Has (.scope 0) := h.global
  refine ⟨ho.has hg, fun index hi => ?_, fun c hc m hm => ?_⟩
  · rcases Record.gives_concat.1 hi with hi | ha
    · exact ho.has (h.given index hi)
    · cases ha
      exact ho.has_answer h.global hl.symbols
  · rcases ho.methods hc hm with ⟨c, hc, hm⟩ | ⟨cls, rfl⟩
    · obtain ⟨cls, a', hx⟩ := h.methods c hc m hm
      exact ⟨cls, a', List.mem_append_left _ hx⟩
    · exact ⟨cls, a, List.mem_append_right _ List.mem_cons_self⟩

/-! ## A sequence of operations -/

/-- **The builder agrees with its record.** -/
structure Follows (r : Record) (b : Builder) : Prop where
  code : CodeOf r b
  labels : LabelsOf r b
  faults : FaultsOf r b
  texts : TextsOf r b
  tables : TablesOf r b

theorem Follows.step (h : Follows r b) (ho : Step b o a b') : Follows (r ++ [(o, a)]) b' :=
  ⟨h.code.step ho, h.labels.step h.code.size ho, h.faults.step h.labels ho, h.texts.step ho, h.tables.step h.labels ho⟩

theorem follows_new (globals : List String) : Follows [] (new globals) := by
  have hno : ∀ {P : Operation × Answer → Prop}, ¬ ∃ x ∈ ([] : Record), P x := fun ⟨_, hx, _⟩ => nomatch hx
  refine ⟨⟨rfl, rfl, ?_⟩, ⟨?_, ?_, ?_, nofun⟩, ⟨?_, ?_⟩, nofun, ⟨Nat.one_pos, ?_, nofun⟩⟩
  · exact fun _ _ _ hx => absurd hx Record.not_prefix_nil
  · exact fun _ _ => ⟨fun h => absurd h hno, nofun⟩
  · exact fun _ _ => ⟨fun ⟨_, _, hx, _⟩ => absurd hx Record.not_prefix_nil, nofun⟩
  · exact fun _ => ⟨fun h => absurd h hno, nofun⟩
  · refine ⟨fun _ => ⟨?_, ?_⟩, fun _ => rfl⟩ <;> exact fun _ _ hx => absurd hx Record.not_prefix_nil
  · exact fun _ => ⟨nofun, fun ⟨_, _, hx, _⟩ => absurd hx Record.not_prefix_nil⟩
  · exact fun _ h => absurd h hno

/-- **Whatever is carried out, the builder goes on to agree with its record.** -/
theorem Follows.run? : ∀ {os : List Operation} {past r : Record} {b b' : Builder}, Follows past b →
    b.run? os = some (r, b') → Follows (past ++ r) b' ∧ r.map Prod.fst = os
  | [], past, _, _, _, h, hr => by
    cases hr
    rw [List.append_nil]
    exact ⟨h, rfl⟩
  | o :: rest, past, r, b, b', h, hr => by
    rw [Builder.run?] at hr
    split at hr
    · cases hr
    · rename_i a b₁ ho
      obtain ⟨⟨r', _⟩, hrest, he⟩ := Option.map_eq_some_iff.1 hr
      cases he
      obtain ⟨hf, hos⟩ := (h.step (step_of_carryOut? ho)).run? hrest
      rw [List.append_assoc] at hf
      exact ⟨hf, congrArg (o :: ·) hos⟩

/-- **Operations that name only indices that were handed out before them.** -/
def Owns (b : Builder) (past : Record) : List Operation → Prop
  | [] => True
  | o :: rest => (∀ index ∈ o.indices, past.Gives index) ∧
      ∀ a b', b.carryOut? o = some (a, b') → Owns b' (past ++ [(o, a)]) rest

/-- **Operations that name only what they were given are all carried out.** -/
theorem Owns.exists_run? : ∀ {os : List Operation} {past : Record} {b : Builder}, Owns b past os → Follows past b →
    ∃ r b', b.run? os = some (r, b')
  | [], _, b, _, _ => ⟨[], b, rfl⟩
  | o :: rest, past, b, ⟨hown, hrest⟩, h => by
    obtain ⟨a, b₁, ho⟩ := exists_carryOut? fun index hi => h.tables.given index (hown index hi)
    obtain ⟨r, b', hr⟩ := (hrest a b₁ ho).exists_run? (h.step (step_of_carryOut? ho))
    exact ⟨(o, a) :: r, b', by rw [Builder.run?, ho]; dsimp only; rw [hr]; rfl⟩

/-! ## The finished image -/

/-- The image of what was built, if it can be finished. -/
def image (b : Builder) : Image :=
  { code := b.code, labels := b.labels, strings := b.strings, classes := b.classes, scopes := b.scopes,
    globalScope := b.globalScope }

theorem finish_eq (b : Builder) : b.finish =
    match b.errors.toList.head?, b.unplaced? with
    | some e, _ => .error e
    | none, some name => .error (.unresolvedLabel name)
    | none, none => .ok b.image := by
  unfold finish
  rw [List.head?_eq_getElem?, Array.getElem?_toList]
  cases b.errors[0]? with
  | some e => rfl
  | none => cases b.unplaced? <;> rfl

theorem nameOf?_eq_some_iff {id : LabelId} {name : String} :
    b.nameOf? id = some name ↔ ∃ h : id < b.labels.size, b.labels[id].name = name := by
  unfold nameOf?
  rw [Option.map_eq_some_iff]
  constructor
  · rintro ⟨l, hl, rfl⟩
    obtain ⟨h, rfl⟩ := Array.getElem?_eq_some_iff.1 hl
    exact ⟨h, rfl⟩
  · rintro ⟨h, rfl⟩
    exact ⟨_, Array.getElem?_eq_getElem h, rfl⟩

theorem isSome_pcOf?_iff {id : LabelId} : (b.pcOf? id).isSome ↔ b.placed[id]? = some true := by
  unfold pcOf?
  split
  · rename_i hp
    have hlt : id < b.labels.size := b.paired ▸ (Array.getElem?_eq_some_iff.1 hp).1
    rw [Array.getElem?_eq_getElem hlt]
    exact iff_of_true rfl hp
  · rename_i hp
    exact iff_of_false nofun hp

theorem unplaced?_eq_some {name : String} : b.unplaced? = some name ↔ ∃ id, b.nameOf? id = some name ∧
    b.pcOf? id = none ∧ ∀ j n, j < id → b.nameOf? j = some n → (b.pcOf? j).isSome := by
  have hunplaced : ∀ {id : LabelId} (h : id < b.placed.size), b.pcOf? id = none ↔ b.placed[id] = false := by
    intro id h
    rw [← Option.not_isSome_iff_eq_none, isSome_pcOf?_iff, Array.getElem?_eq_getElem h, Option.some_inj,
      Bool.not_eq_true]
  unfold unplaced?
  rw [Option.bind_eq_some_iff]
  refine exists_congr fun id => ?_
  rw [List.findIdx?_eq_some_iff_getElem]
  constructor
  · rintro ⟨⟨hlt, hnot, hbefore⟩, hname⟩
    refine ⟨hname, (hunplaced hlt).2 (by simpa using hnot), fun j n hj _ => ?_⟩
    rw [isSome_pcOf?_iff, Array.getElem?_eq_getElem (Nat.lt_trans hj hlt)]
    simpa using hbefore j hj
  · rintro ⟨hname, hnone, hbefore⟩
    obtain ⟨hlt, -⟩ := nameOf?_eq_some_iff.1 hname
    have hlt' : id < b.placed.size := b.paired ▸ hlt
    refine ⟨⟨hlt', by simpa using (hunplaced hlt').1 hnone, fun j hj => ?_⟩, hname⟩
    have hj' := hbefore j _ hj (nameOf?_eq_some_iff.2 ⟨Nat.lt_trans hj hlt, rfl⟩)
    rw [isSome_pcOf?_iff, Array.getElem?_eq_getElem (Nat.lt_trans hj hlt')] at hj'
    simpa using hj'

theorem unplaced?_eq_none : b.unplaced? = none ↔ ∀ id name, b.nameOf? id = some name → (b.pcOf? id).isSome := by
  unfold unplaced?
  constructor
  · intro h id name hname
    obtain ⟨hlt, -⟩ := nameOf?_eq_some_iff.1 hname
    have hlt' : id < b.placed.size := b.paired ▸ hlt
    cases hfind : b.placed.toList.findIdx? (!·) with
    | none =>
      have hall := List.findIdx?_eq_none_iff.1 hfind b.placed[id] (Array.getElem_mem_toList hlt')
      rw [isSome_pcOf?_iff, Array.getElem?_eq_getElem hlt']
      simpa using hall
    | some first =>
      obtain ⟨hfirst, -⟩ := List.findIdx?_eq_some_iff_getElem.1 hfind
      rw [hfind, Option.bind_some, Array.getElem?_eq_getElem (b.paired ▸ hfirst)] at h
      cases h
  · intro h
    have hall : b.placed.toList.findIdx? (!·) = none := by
      rw [List.findIdx?_eq_none_iff]
      intro p hp
      obtain ⟨id, hlt, rfl⟩ := Array.getElem_of_mem (Array.mem_toList_iff.1 hp)
      have hsome := h id _ (nameOf?_eq_some_iff.2 ⟨b.paired ▸ hlt, rfl⟩)
      rw [isSome_pcOf?_iff, Array.getElem?_eq_getElem hlt] at hsome
      simpa using hsome
    rw [hall]
    rfl

namespace Follows

variable (h : Follows r b)

include h

theorem unplaced?_eq_none : b.unplaced? = none ↔ r.PlacesAll := by
  rw [Builder.unplaced?_eq_none]
  simp only [← h.labels.names, ← h.labels.places]
  rfl

theorem unplaced?_eq_some {name : String} : b.unplaced? = some name ↔ r.FirstUnplaced (.unresolvedLabel name) := by
  rw [Builder.unplaced?_eq_some]
  have hnot : ∀ id, b.pcOf? id = none ↔ ¬ r.Places id := fun id => by
    rw [h.labels.places, Option.not_isSome_iff_eq_none]
  simp only [← h.labels.names, ← h.labels.places, hnot]
  constructor
  · rintro ⟨id, hn, hp, hb⟩
    exact ⟨id, name, hn, hp, hb, rfl⟩
  · rintro ⟨id, _, hn, hp, hb, he⟩
    cases he
    exact ⟨id, hn, hp, hb⟩

/-- **The image is finished exactly if nothing went wrong and every label was placed.** -/
theorem finish_eq_ok {image : Image} :
    b.finish = .ok image ↔ (r.DefinesOnce ∧ r.PlacesOnce ∧ r.PlacesAll) ∧ image = b.image := by
  rw [finish_eq, ← and_assoc, ← h.faults.faultless, ← h.unplaced?_eq_none]
  cases b.errors.toList with
  | cons first rest => simp
  | nil => cases b.unplaced? <;> simp [eq_comm]

/-- **Otherwise the first fault is reported, or else the lowest label that was not placed.** -/
theorem finish_eq_error {e : BuildError} : b.finish = .error e ↔
    r.FirstFault e ∨ (r.DefinesOnce ∧ r.PlacesOnce) ∧ r.FirstUnplaced e := by
  have hunplaced : r.FirstUnplaced e ↔ ∃ name, e = .unresolvedLabel name ∧ b.unplaced? = some name := by
    simp only [h.unplaced?_eq_some]
    constructor
    · rintro ⟨id, name, hn, hp, hb, rfl⟩
      exact ⟨name, rfl, id, name, hn, hp, hb, rfl⟩
    · rintro ⟨name, rfl, hu⟩
      exact hu
  rw [finish_eq, ← h.faults.first, ← h.faults.faultless, hunplaced]
  cases b.errors.toList with
  | cons first rest => simp
  | nil => cases b.unplaced? <;> simp [eq_comm]

/-- **The labels of a finished image are those that were made, and stand where they were first placed.** -/
theorem label_image (hall : r.PlacesAll) {id : LabelId} {l : Label} :
    b.image.labels[id]? = some l ↔ r.Names id l.name ∧ r.PlacesAt id l.pc := by
  have himage : b.image.labels = b.labels := rfl
  rw [himage, h.labels.names, h.labels.placed, nameOf?]
  constructor
  · intro hl
    have hname : r.Names id l.name := (h.labels.names _ _).2 (by rw [nameOf?, hl]; rfl)
    have hplaced := isSome_pcOf?_iff.1 (h.labels.places.1 (hall id _ hname))
    exact ⟨by rw [hl]; rfl, by rw [pcOf?, if_pos hplaced, hl]; rfl⟩
  · rintro ⟨hname, hpc⟩
    have hplaced := isSome_pcOf?_iff.1 (Option.isSome_iff_exists.2 ⟨_, hpc⟩)
    rw [pcOf?, if_pos hplaced] at hpc
    obtain ⟨l', hl', hn⟩ := Option.map_eq_some_iff.1 hname
    rw [hl', Option.map_some, Option.some_inj] at hpc
    rw [hl']
    cases l
    cases l'
    cases hn
    cases hpc
    rfl

end Follows

/-- **What a code generator gets for its operations**, if they name only indices that were handed out to it.  They are
all carried out.  The image can be finished exactly if no symbol was defined that was known, no label was placed twice
and every label was placed; otherwise the first fault is reported, or if there was none the lowest label that was not
placed.  A finished image has the instructions in the order they were emitted, each at the position set last before
it, and the labels where they were first placed; its strings are all different, and each stands where its interning
said. -/
theorem finish_exact {globals : List String} {os : List Operation} (h : (new globals).Owns [] os) :
    ∃ r b, (new globals).run? os = some (r, b) ∧ r.map Prod.fst = os ∧
      ((∃ image, b.finish = .ok image) ↔ r.DefinesOnce ∧ r.PlacesOnce ∧ r.PlacesAll) ∧
      (∀ e, b.finish = .error e ↔ r.FirstFault e ∨ (r.DefinesOnce ∧ r.PlacesOnce) ∧ r.FirstUnplaced e) ∧
      ∀ image, b.finish = .ok image →
        image.code.size = r.emitted.length ∧
        (∀ past x op, past ++ [x] <+: r → x.1.emits? = some op →
          image.code[(Record.emitted past).length]? = some ⟨Record.position past, op⟩) ∧
        (∀ id l, image.labels[id]? = some l ↔ r.Names id l.name ∧ r.PlacesAt id l.pc) ∧
        image.strings.toList.Nodup ∧
        ∀ text a, (.intern text, a) ∈ r → ∃ id, a = .index (.string id) ∧ image.strings[id]? = some text := by
  obtain ⟨r, b, hr⟩ := h.exists_run? (follows_new globals)
  obtain ⟨hf, hos⟩ := (follows_new globals).run? hr
  rw [List.nil_append] at hf
  refine ⟨r, b, hr, hos, ?_, fun e => hf.finish_eq_error, fun image hi => ?_⟩
  · simp only [hf.finish_eq_ok, exists_and_left, exists_eq, and_true]
  · obtain ⟨⟨-, -, hall⟩, rfl⟩ := hf.finish_eq_ok.1 hi
    exact ⟨hf.code.size, hf.code.code, fun id l => hf.label_image hall, b.nodup_strings, hf.texts⟩

/-- A jump to a label that is placed after it, and a string that is interned twice. -/
def forwardJump : List Operation :=
  [.newLabel "end", .emit (.jump 0), .line 2, .intern "a", .emit (.litStr 0), .intern "a", .place 0, .emit .finish]

theorem finish_exact_forwardJump : (new []).Owns [] forwardJump ∧ ∃ r b image,
    (new []).run? forwardJump = some (r, b) ∧ b.finish = .ok image ∧ (r.DefinesOnce ∧ r.PlacesOnce ∧ r.PlacesAll) ∧
    image.code.size = 3 ∧ image.labels[0]? = some ⟨"end", 2⟩ ∧ r.PlacesAt 0 2 ∧ image.strings = #["a"] := by
  have hown : (new []).Owns [] forwardJump := by
    simp [forwardJump, Owns, Record.Gives, Operation.indices, Op.indices, carryOut?, new, newLabel, emit, setLine, setPos,
      Builder.intern, Builder.place]
  obtain ⟨r, b, hr, -, hok, -, himage⟩ := finish_exact hown
  have hbuilt : ((new []).run? forwardJump).map (fun x => x.2.finish) = some (.ok
      { code := #[⟨⟨1, 1⟩, .jump 0⟩, ⟨⟨2, 1⟩, .litStr 0⟩, ⟨⟨2, 1⟩, .finish⟩], labels := #[⟨"end", 2⟩], strings := #["a"],
        classes := #[], scopes := #[Scope.global []], globalScope := 0 }) := by rfl
  rw [hr] at hbuilt
  have hfinish := Option.some.inj hbuilt
  obtain ⟨-, -, hlabels, -⟩ := himage _ hfinish
  exact ⟨hown, r, b, _, hr, hfinish, hok.1 ⟨_, hfinish⟩, rfl, rfl, ((hlabels 0 _).1 rfl).2, rfl⟩

end Builder

end PseudoVm
