import Mathlib.Algebra.Group.Nat.Defs
import Mathlib.Data.List.Forall2
import PseudoVm.Proofs.Session.FreshStart
/-!
# Session.LineBinding: what a breakpoint on a line is bound to

A line is bound to the first of its instructions in the order of the code (`Image.StartsLine`), wherever the lines
before and after it lie; line 0 is bound to nothing.  This is what the walk over the code comes to that fills the table
(`LineTable.getElem?_fill`), which can be made as long as the highest line leaves room for it (`ofImage?_eq_some_iff`).
The table of a session is that of its image, and its bitmap has a bit for each instruction, whatever happens at the
session (`Desk.sameRows_run`), so requests for lines are answered from the code (`breakpoints_bind`).
-/
namespace PseudoVm

namespace Image

/-- **An instruction is the first on a line.** -/
structure StartsLine (image : Image) (line pc : Nat) : Prop where
  on : ∃ i, image.code[pc]? = some i ∧ i.pos.line = line
  first : ∀ earlier < pc, ∀ i, image.code[earlier]? = some i → i.pos.line ≠ line

/-- Some instruction is on a line. -/
def CarriesLine (image : Image) (line : Nat) : Prop := ∃ i ∈ image.code, i.pos.line = line

/-- The lines of the code never go back. -/
def LinesAscend (image : Image) : Prop := image.code.toList.Pairwise fun i j => i.pos.line ≤ j.pos.line

end Image

namespace LineTable

/-! ## The walk that fills a table -/

theorem getElem?_enter (firsts : Array (Option Nat)) (pc l line : Nat) : (enter firsts pc l)[line]? =
    if l = line ∧ 0 < line ∧ firsts[line]? = some none then some (some pc) else firsts[line]? := by
  unfold enter
  by_cases h : 0 < l ∧ firsts[l]? = some none
  · rw [if_pos h]
    by_cases hl : l = line
    · subst hl
      rw [if_pos ⟨rfl, h⟩, Array.getElem?_setIfInBounds_self_of_lt (Array.getElem?_eq_some_iff.1 h.2).1]
    · rw [if_neg fun h' => hl h'.1, Array.getElem?_setIfInBounds_ne hl]
  · rw [if_neg h, if_neg]
    rintro ⟨rfl, h'⟩
    exact h h'

theorem size_enter (firsts : Array (Option Nat)) (pc line : Nat) : (enter firsts pc line).size = firsts.size := by
  unfold enter
  split
  · exact Array.size_setIfInBounds
  · rfl

theorem size_fill : ∀ (lines : List Nat) (firsts : Array (Option Nat)) (pc : Nat),
    (fill firsts pc lines).size = firsts.size
  | [], _, _ => rfl
  | _ :: lines, _, _ => (size_fill lines _ _).trans (size_enter ..)

/-- **The walk gives a line the first instruction that is on it**: a row that is taken stays as it is, and line 0 has
none. -/
theorem getElem?_fill (line : Nat) : ∀ (lines : List Nat) (firsts : Array (Option Nat)) (pc : Nat),
    (fill firsts pc lines)[line]? = (firsts[line]?).map fun first =>
      first.or (if line = 0 then none else (lines.findIdx? (· == line)).map (· + pc))
  | [], firsts, pc => by
    rw [fill, List.findIdx?_nil, Option.map_none, ite_self]
    cases firsts[line]? <;> simp
  | l :: lines, firsts, pc => by
    rw [fill, getElem?_fill line lines, getElem?_enter, List.findIdx?_cons]
    obtain hrow | ⟨first, hrow⟩ := Option.eq_none_or_eq_some firsts[line]?
    · rw [hrow]
      simp
    rw [hrow]
    by_cases hline : line = 0
    · subst hline
      simp
    cases first with
    | some earlier => simp
    | none =>
      by_cases hl : l = line
      · simp [hl, hline, Nat.pos_of_ne_zero hline]
      · have hshift : (fun i => i + (pc + 1)) = (fun i => i + pc) ∘ (· + 1) := by
          funext i
          simp only [Function.comp_apply]
          omega
        simp [hl, hline, hshift]

theorem lt_rowsFor {lines : List Nat} {line : Nat} (h : line ∈ lines) : line < rowsFor lines := by
  unfold rowsFor
  cases hmax : lines.max? with
  | none => rw [List.max?_eq_none_iff.1 hmax] at h; cases h
  | some highest => exact Nat.lt_succ_of_le ((List.max?_eq_some_iff.1 hmax).2 line h)

/-! ## Tables -/

variable {lines : List Nat} {t : LineTable} {image : Image} {line pc : Nat}

theorem firstOf?_ofLines (lines : List Nat) (line : Nat) :
    (ofLines lines).firstOf? line = if line = 0 then none else lines.findIdx? (· == line) := by
  rw [firstOf?, ofLines, getElem?_fill, Array.getElem?_replicate]
  by_cases hline : line < rowsFor lines
  · rw [if_pos hline]
    simp
  · have hfar : lines.findIdx? (· == line) = none := by
      rw [List.findIdx?_eq_none_iff]
      intro l hl
      exact beq_false_of_ne fun h => hline (h ▸ lt_rowsFor hl)
    rw [if_neg hline, hfar, ite_self]
    rfl

/-- **A line is bound to the first place where the table has it.** -/
theorem firstOf?_eq_some_iff : (ofLines lines).firstOf? line = some pc ↔
    0 < line ∧ lines[pc]? = some line ∧ ∀ earlier < pc, lines[earlier]? ≠ some line := by
  rw [firstOf?_ofLines]
  by_cases hline : line = 0
  · rw [if_pos hline]
    exact ⟨nofun, fun h => absurd hline (Nat.ne_of_gt h.1)⟩
  rw [if_neg hline, List.findIdx?_eq_some_iff_getElem]
  constructor
  · rintro ⟨hpc, hat, hbefore⟩
    refine ⟨Nat.pos_of_ne_zero hline, List.getElem?_eq_some_iff.2 ⟨hpc, eq_of_beq hat⟩, fun earlier he hat' => ?_⟩
    obtain ⟨_, heq⟩ := List.getElem?_eq_some_iff.1 hat'
    exact hbefore earlier he (beq_iff_eq.2 heq)
  · rintro ⟨-, hat, hbefore⟩
    obtain ⟨hpc, heq⟩ := List.getElem?_eq_some_iff.1 hat
    refine ⟨hpc, beq_iff_eq.2 heq, fun earlier he hat' => hbefore earlier he ?_⟩
    exact List.getElem?_eq_some_iff.2 ⟨Nat.lt_trans he hpc, eq_of_beq hat'⟩

theorem isSome_firstOf?_iff : ((ofLines lines).firstOf? line).isSome = true ↔ 0 < line ∧ line ∈ lines := by
  rw [firstOf?_ofLines]
  by_cases hline : line = 0
  · rw [if_pos hline]
    exact ⟨nofun, fun h => absurd hline (Nat.ne_of_gt h.1)⟩
  · rw [if_neg hline, List.findIdx?_isSome, List.any_beq', List.contains_iff_mem]
    exact (and_iff_right (Nat.pos_of_ne_zero hline)).symm

/-- **The valid lines are those that a breakpoint can be bound to**, in ascending order. -/
theorem mem_validLines : line ∈ t.validLines ↔ (t.firstOf? line).isSome = true := by
  rw [validLines, List.mem_filter, List.mem_range, carriesCode, and_iff_right_iff_imp]
  intro h
  refine Nat.not_le.1 fun hle => ?_
  rw [firstOf?, Array.getElem?_eq_none hle] at h
  cases h

theorem pairwise_validLines (t : LineTable) : t.validLines.Pairwise (· < ·) := List.pairwise_lt_range.filter _

theorem lt_of_firstOf? {line' pc' : Nat} (hasc : lines.Pairwise (· ≤ ·)) (h : (ofLines lines).firstOf? line = some pc)
    (h' : (ofLines lines).firstOf? line' = some pc') (hlt : line < line') : pc < pc' := by
  obtain ⟨-, hat, -⟩ := firstOf?_eq_some_iff.1 h
  obtain ⟨-, hat', -⟩ := firstOf?_eq_some_iff.1 h'
  obtain ⟨hpc, hline⟩ := List.getElem?_eq_some_iff.1 hat
  obtain ⟨hpc', hline'⟩ := List.getElem?_eq_some_iff.1 hat'
  rcases Nat.lt_trichotomy pc pc' with hbefore | rfl | hafter
  · exact hbefore
  · rw [hline] at hline'
    exact absurd hline' (Nat.ne_of_lt hlt)
  · have hle := List.pairwise_iff_getElem.1 hasc pc' pc hpc' hpc hafter
    rw [hline, hline'] at hle
    exact absurd hlt (Nat.not_lt.2 hle)

/-! ## The table of an image -/

theorem rowsFor_mul_rowSize_le {n : Nat} :
    rowsFor lines * rowSize ≤ n ↔ ∀ line ∈ lines, (line + 1) * rowSize ≤ n := by
  unfold rowsFor
  cases hmax : lines.max? with
  | none =>
    rw [List.max?_eq_none_iff.1 hmax]
    exact ⟨fun _ => nofun, fun _ => by rw [Option.map_none, Option.getD_none, Nat.zero_mul]; exact Nat.zero_le n⟩
  | some highest =>
    obtain ⟨hmem, hle⟩ := List.max?_eq_some_iff.1 hmax
    refine ⟨fun h line hl => Nat.le_trans ?_ h, fun h => h highest hmem⟩
    exact Nat.mul_le_mul_right _ (Nat.succ_le_succ (hle line hl))

/-- **The table of an image can be made if its highest line leaves room for it**: 16 bytes a line. -/
theorem ofImage?_eq_some_iff : ofImage? image = some t ↔
    (∀ i ∈ image.code, i.pos.line < 2 ^ 59 - 1) ∧ t = ofLines (image.code.toList.map (·.pos.line)) := by
  have hroom : Bound.block < rowsFor (image.code.toList.map (·.pos.line)) * rowSize ↔
      ¬ ∀ i ∈ image.code, i.pos.line < 2 ^ 59 - 1 := by
    rw [← Nat.not_le, rowsFor_mul_rowSize_le, List.forall_mem_map]
    refine not_congr ⟨fun h i hi => ?_, fun h i hi => ?_⟩
    · have hi := h i (Array.mem_toList_iff.2 hi)
      unfold rowSize Bound.block at hi
      omega
    · have hi := h i (Array.mem_toList_iff.1 hi)
      unfold rowSize Bound.block
      omega
  unfold ofImage? ofLines?
  by_cases h : ∀ i ∈ image.code, i.pos.line < 2 ^ 59 - 1
  · rw [if_neg (fun hlt => hroom.1 hlt h), Option.some_inj, and_iff_right h, eq_comm]
  · rw [if_pos (hroom.2 h)]
    exact ⟨nofun, fun ht => absurd ht.1 h⟩

section OfImage

variable (ht : ofImage? image = some t)
include ht

/-- **A line is bound to the first of its instructions.** -/
theorem firstOf?_iff_startsLine : t.firstOf? line = some pc ↔ 0 < line ∧ image.StartsLine line pc := by
  obtain ⟨-, rfl⟩ := ofImage?_eq_some_iff.1 ht
  rw [firstOf?_eq_some_iff]
  refine and_congr_right fun _ => ?_
  simp only [List.getElem?_map, Array.getElem?_toList, Option.map_eq_some_iff, not_exists, not_and, ne_eq]
  exact ⟨fun ⟨hon, hfirst⟩ => ⟨hon, hfirst⟩, fun h => ⟨h.on, h.first⟩⟩

theorem isSome_firstOf?_iff_carriesLine : (t.firstOf? line).isSome = true ↔ 0 < line ∧ image.CarriesLine line := by
  obtain ⟨-, rfl⟩ := ofImage?_eq_some_iff.1 ht
  rw [isSome_firstOf?_iff]
  simp only [List.mem_map, Array.mem_toList_iff, Image.CarriesLine]

theorem lt_of_firstOf?_eq_some (h : t.firstOf? line = some pc) : pc < image.code.size := by
  obtain ⟨i, hi, -⟩ := ((firstOf?_iff_startsLine ht).1 h).2.on
  exact (Array.getElem?_eq_some_iff.1 hi).1

end OfImage

end LineTable

/-! ## Bits -/

namespace Session

theorem getD_setIfInBounds_true (bits : Array Bool) (first pc : Nat) :
    (bits.setIfInBounds first true).getD pc false = true ↔ bits.getD pc false = true ∨ first = pc ∧ pc < bits.size := by
  rw [Array.getD_eq_getD_getElem?, Array.getD_eq_getD_getElem?, Array.getElem?_setIfInBounds]
  by_cases h : first = pc
  · subst h
    by_cases hlt : first < bits.size
    · simp [hlt]
    · simp [hlt]
  · simp [h]

theorem foldl_setIfInBounds : ∀ (pcs : List Nat) (bits : Array Bool),
    (pcs.foldl (fun bits pc => bits.setIfInBounds pc true) bits).size = bits.size ∧
    ∀ pc, (pcs.foldl (fun bits pc => bits.setIfInBounds pc true) bits).getD pc false = true ↔
      bits.getD pc false = true ∨ pc ∈ pcs ∧ pc < bits.size
  | [], bits => ⟨rfl, fun pc => by simp⟩
  | first :: pcs, bits => by
    obtain ⟨hsize, hbits⟩ := foldl_setIfInBounds pcs (bits.setIfInBounds first true)
    rw [Array.size_setIfInBounds] at hsize hbits
    refine ⟨hsize, fun pc => (hbits pc).trans ?_⟩
    rw [getD_setIfInBounds_true, List.mem_cons, or_assoc, ← or_and_right, eq_comm (a := first)]

theorem size_replaceBits (bits : Array Bool) (pcs : List Nat) : (replaceBits bits pcs).size = bits.size :=
  (foldl_setIfInBounds pcs _).1.trans Array.size_replicate

/-- **Just the bits asked for are set**, as far as there are any. -/
theorem getD_replaceBits {bits : Array Bool} {pcs : List Nat} {pc : Nat} :
    (replaceBits bits pcs).getD pc false = true ↔ pc ∈ pcs ∧ pc < bits.size := by
  unfold replaceBits
  rw [(foldl_setIfInBounds pcs _).2, getD_clear, Array.size_replicate]
  simp

/-- Every instruction that a line is bound to has a bit. -/
def HasBits (s : Session) : Prop := ∀ line pc, s.table.firstOf? line = some pc → pc < s.lineBreaks.size

/-- The lines are those of another session, and there are as many bits. -/
structure SameRows (s s' : Session) : Prop where
  table : s'.table = s.table
  bits : s'.lineBreaks.size = s.lineBreaks.size

variable {s s' s'' : Session}

theorem SameRows.trans (h : s.SameRows s') (h' : s'.SameRows s'') : s.SameRows s'' :=
  ⟨h'.table.trans h.table, h'.bits.trans h.bits⟩

theorem SameRows.hasBits (h : s.SameRows s') (hs : s.HasBits) : s'.HasBits := by
  unfold HasBits
  rw [h.table, h.bits]
  exact hs

theorem Stays.sameRows (h : s.Stays s') : s.SameRows s' :=
  ⟨h.table, congrArg (fun settings => settings.lineBreaks.size) h.settings⟩

end Session

/-! ## Requests for lines -/

theorem Request.sameRows_apply (r : Request) (s : Session) : s.SameRows (r.apply s) := by
  cases hset : r.isSetting with
  | false => exact (Session.stays_apply hset s).sameRows
  | true =>
    cases r with
    | lineBreakpoints => exact ⟨rfl, Session.size_replaceBits ..⟩
    | instBreakpoints | stopOnEntry | noDebug | name | suppress => exact ⟨rfl, rfl⟩
    | play | pause | step | halt | terminate | setVariable | restartFrame | evaluate | rewind => cases hset

namespace Desk

theorem sameRows_perform (d : Desk) (a : Act) : d.session.SameRows (d.perform a).session := by
  cases a with
  | ask r => exact Session.asked_keeps (P := d.session.SameRows) ⟨rfl, rfl⟩ (r.sameRows_apply d.session)
  | turn =>
    show d.session.SameRows d.turn.session
    cases hw : d.session.working with
    | false =>
      rw [turn_of_not_working hw]
      exact ⟨rfl, rfl⟩
    | true =>
      obtain ⟨o, s, hs, hturn⟩ := turn_of_working hw
      rw [hturn]
      cases o with
      | none => exact hs.stays.sameRows
      | some o =>
        have hconclude : s.SameRows (s.conclude o) := by cases o <;> exact ⟨rfl, rfl⟩
        exact hs.stays.sameRows.trans hconclude
  | deliver =>
    obtain ⟨es, he⟩ := d.deliver_session
    show d.session.SameRows d.deliver.session
    rw [he]
    exact ⟨rfl, rfl⟩

/-- **Nothing that happens at a session changes its lines.** -/
theorem sameRows_run (d : Desk) (acts : List Act) : d.session.SameRows (d.run acts).session :=
  run_keeps (P := fun d' => d.session.SameRows d'.session) (fun d' a _ h => h.trans (d'.sameRows_perform a)) ⟨rfl, rfl⟩

end Desk

/-- **What is answered to a request for a breakpoint on a line.** -/
structure BreakpointStatus.Tells (image : Image) (line : Nat) (status : BreakpointStatus) : Prop where
  requested : status.requested = line
  verified : status.verified = true ↔ 0 < line ∧ image.CarriesLine line
  pc : ∀ pc, status.pc = some pc ↔ 0 < line ∧ image.StartsLine line pc
  line : status.line = if status.verified then line else 0

namespace Session

variable {image : Image} {limits : Limits} {world : World} {s : Session} {t : LineTable}

theorem ofImage?_of_create? (h : create? image limits world = some s) :
    LineTable.ofImage? image = some s.table := by
  obtain ⟨table, ht, h⟩ := Option.bind_eq_some_iff.1 h
  obtain ⟨machine, -, h⟩ := Option.bind_eq_some_iff.1 h
  cases h
  exact ht

/-- **The bitmap of a session has a bit for each instruction.** -/
theorem hasBits_create? (h : create? image limits world = some s) : s.HasBits := by
  have ht := ofImage?_of_create? h
  obtain ⟨hm, hs⟩ := create?_eq h
  intro line pc hpc
  have hbits : s.lineBreaks.size = s.machine.image.code.size := by
    rw [hs]
    exact Array.size_replicate
  rw [hbits, (Machine.create?_fixed hm).1]
  exact LineTable.lt_of_firstOf?_eq_some ht hpc

theorem pc_lineStatus (t : LineTable) (line : Nat) : (lineStatus t line).pc = t.firstOf? line := by
  unfold lineStatus
  cases t.firstOf? line <;> rfl

theorem verified_lineStatus (t : LineTable) (line : Nat) :
    (lineStatus t line).verified = (t.firstOf? line).isSome := by
  unfold lineStatus
  cases t.firstOf? line <;> rfl

theorem requested_lineStatus (t : LineTable) (line : Nat) : (lineStatus t line).requested = line := by
  unfold lineStatus
  cases t.firstOf? line <;> rfl

theorem tells_lineStatus (ht : LineTable.ofImage? image = some t) (line : Nat) :
    (lineStatus t line).Tells image line where
  requested := requested_lineStatus t line
  verified := by rw [verified_lineStatus, LineTable.isSome_firstOf?_iff_carriesLine ht]
  pc pc := by rw [pc_lineStatus, LineTable.firstOf?_iff_startsLine ht]
  line := by unfold lineStatus; cases t.firstOf? line <;> rfl

/-- **The instructions with a line breakpoint are those that the lines asked for are bound to.** -/
theorem lineBreaks_setLineBreakpoints (hs : s.HasBits) {lines : List Nat} {pc : Nat} :
    (s.setLineBreakpoints lines).2.lineBreaks.getD pc false = true ↔
      ∃ line ∈ lines, s.table.firstOf? line = some pc := by
  show (replaceBits s.lineBreaks ((lines.map (lineStatus s.table)).filterMap (·.pc))).getD pc false = true ↔ _
  rw [getD_replaceBits]
  simp only [List.filterMap_map, List.mem_filterMap, Function.comp_apply, pc_lineStatus, and_iff_left_iff_imp]
  rintro ⟨line, -, hpc⟩
  exact hs line pc hpc

end Session

/-- **Breakpoints on lines are bound to the first instruction of each line.**  The valid lines are those that carry
code, and they start in their order if the lines of the code never go back.  A request replaces the line breakpoints,
leaves everything else alone and is answered line by line. -/
theorem breakpoints_bind {image : Image} (h : ∀ i ∈ image.code, i.pos.line < 2 ^ 59 - 1) :
    ∃ t, LineTable.ofImage? image = some t ∧
    (∀ line pc, t.firstOf? line = some pc ↔ 0 < line ∧ image.StartsLine line pc) ∧
    t.validLines.Pairwise (· < ·) ∧ (∀ line, line ∈ t.validLines ↔ 0 < line ∧ image.CarriesLine line) ∧
    (image.LinesAscend → ∀ line ∈ t.validLines, ∀ line' ∈ t.validLines, line < line' →
      ∃ pc pc', t.firstOf? line = some pc ∧ t.firstOf? line' = some pc' ∧ pc < pc') ∧
    ∀ limits world s₀, Session.create? image limits world = some s₀ → ∀ (acts : List Act) (lines : List Nat),
      let s := ((Desk.of s₀).run acts).session
      let r := s.setLineBreakpoints lines
      r.2 = { s with lineBreaks := r.2.lineBreaks } ∧
      (∀ pc, r.2.lineBreaks.getD pc false = true ↔ ∃ line ∈ lines, t.firstOf? line = some pc) ∧
      List.Forall₂ (BreakpointStatus.Tells image) lines r.1 := by
  have ht := LineTable.ofImage?_eq_some_iff.2 ⟨h, rfl⟩
  generalize LineTable.ofLines (image.code.toList.map (·.pos.line)) = t at ht
  refine ⟨t, ht, fun line pc => LineTable.firstOf?_iff_startsLine ht, t.pairwise_validLines, fun line => ?_,
    fun hasc line hline line' hline' hlt => ?_, fun limits world s₀ hcreate acts lines => ?_⟩
  · rw [LineTable.mem_validLines, LineTable.isSome_firstOf?_iff_carriesLine ht]
  · obtain ⟨pc, hpc⟩ := Option.isSome_iff_exists.1 (LineTable.mem_validLines.1 hline)
    obtain ⟨pc', hpc'⟩ := Option.isSome_iff_exists.1 (LineTable.mem_validLines.1 hline')
    obtain ⟨-, rfl⟩ := LineTable.ofImage?_eq_some_iff.1 ht
    exact ⟨pc, pc', hpc, hpc', LineTable.lt_of_firstOf? (List.pairwise_map.2 hasc) hpc hpc' hlt⟩
  · have hrows := (Desk.of s₀).sameRows_run acts
    have htable : ((Desk.of s₀).run acts).session.table = t :=
      hrows.table.trans (Option.some_inj.1 ((Session.ofImage?_of_create? hcreate).symm.trans ht))
    refine ⟨rfl, fun pc => ?_, ?_⟩
    · rw [Session.lineBreaks_setLineBreakpoints (hrows.hasBits (Session.hasBits_create? hcreate)), htable]
    · show List.Forall₂ _ lines (lines.map (Session.lineStatus _))
      rw [List.forall₂_map_right_iff, htable]
      exact List.forall₂_same.2 fun line _ => Session.tells_lineStatus ht line

/-- A program whose lines go forth and back, one instruction a line; two have no source. -/
def zigzag : Image where
  code := #[⟨⟨0, 0⟩, .litBool true⟩, ⟨⟨3, 1⟩, .pop⟩, ⟨⟨1, 1⟩, .litBool true⟩, ⟨⟨3, 1⟩, .pop⟩, ⟨⟨0, 0⟩, .litBool true⟩,
    ⟨⟨2, 1⟩, .finish⟩]
  labels := #[]
  strings := #[]
  classes := #[]
  scopes := #[.global []]
  globalScope := 0

/-- Its session. -/
def zigzagSession : Session where
  machine := ⟨zigzag, {}, 0, [.fresh 0 0 0 [] 0], 0, none, [], [], (Desk.callOnceSession 0).machine.world⟩
  table := .ofLines [0, 3, 1, 3, 0, 2]

/-- Lines that are asked for twice, that have no code, and line 0; with breakpoints of before on a line and on an
instruction.  In a program whose lines never go back, the third line starts after the first. -/
theorem breakpoints_bind_zigzag :
    (∀ i ∈ zigzag.code, i.pos.line < 2 ^ 59 - 1) ∧ zigzagSession.table.validLines = [1, 2, 3] ∧
    (let s := ((Desk.of zigzagSession).run [.ask (.lineBreakpoints [1]), .ask (.instBreakpoints [4])]).session
    let r := s.setLineBreakpoints [3, 9, 0, 3, 2]
    (∀ pc, r.2.breaksAt pc = true ↔ pc = 1 ∨ pc = 5 ∨ pc = 4) ∧
    List.Forall₂ (BreakpointStatus.Tells zigzag) [3, 9, 0, 3, 2] r.1 ∧
    r.1.map (·.pc) = [some 1, none, none, some 1, some 5]) ∧
    Desk.callOnce.LinesAscend ∧ ∃ t pc pc', LineTable.ofImage? Desk.callOnce = some t ∧
      t.firstOf? 1 = some pc ∧ t.firstOf? 3 = some pc' ∧ pc < pc' := by
  have hlines : ∀ i ∈ zigzag.code, i.pos.line < 2 ^ 59 - 1 := by decide
  refine ⟨hlines, by decide, ?_, by unfold Image.LinesAscend; decide, ?_⟩
  · obtain ⟨t, ht, -, -, -, -, hrequest⟩ := breakpoints_bind hlines
    have hzigzag : LineTable.ofImage? zigzag = some zigzagSession.table := rfl
    obtain rfl := Option.some_inj.1 (hzigzag.symm.trans ht)
    obtain ⟨hrest, hbound, htells⟩ := hrequest {} _ zigzagSession rfl
      [.ask (.lineBreakpoints [1]), .ask (.instBreakpoints [4])] [3, 9, 0, 3, 2]
    refine ⟨fun pc => ?_, htells, by decide⟩
    have h0 : zigzagSession.table.firstOf? 0 = none := rfl
    have h2 : zigzagSession.table.firstOf? 2 = some 5 := rfl
    have h3 : zigzagSession.table.firstOf? 3 = some 1 := rfl
    have h9 : zigzagSession.table.firstOf? 9 = none := rfl
    have hinst : (Session.replaceBits (.replicate 6 false) [4]).getD pc false = true ↔ pc = 4 := by
      rw [Session.getD_replaceBits, List.mem_singleton, Array.size_replicate]
      omega
    rw [hrest, Session.breaksAt, Bool.or_eq_true, hbound pc]
    show _ ∨ (Session.replaceBits (.replicate 6 false) [4]).getD pc false = true ↔ _
    simp only [hinst, List.mem_cons, List.not_mem_nil, or_false, exists_eq_or_imp, exists_eq_left, h0, h2, h3, h9,
      Option.some.injEq]
    grind
  · have hshort : ∀ i ∈ Desk.callOnce.code, i.pos.line < 2 ^ 59 - 1 := by decide
    obtain ⟨t, ht, -, -, -, hascend, -⟩ := breakpoints_bind hshort
    have hcallOnce : LineTable.ofImage? Desk.callOnce = some (Desk.callOnceSession 0).table := rfl
    obtain rfl := Option.some_inj.1 (hcallOnce.symm.trans ht)
    obtain ⟨pc, pc', hpc, hpc', hlt⟩ :=
      hascend (by unfold Image.LinesAscend; decide) 1 (by decide) 3 (by decide) (by decide)
    exact ⟨_, pc, pc', ht, hpc, hpc', hlt⟩

/-- A program of one instruction, on a line that a 64-bit number can have. -/
def farDown : Image where
  code := #[⟨⟨2 ^ 60, 1⟩, .finish⟩]
  labels := #[]
  strings := #[]
  classes := #[]
  scopes := #[.global []]
  globalScope := 0

/-- **Not every line has a place in a table**: the instruction starts its line, and there is neither a table nor a
session. -/
theorem breakpoints_unbound :
    (∀ i ∈ farDown.code, i.pos.line < 2 ^ 64 - 1) ∧ farDown.StartsLine (2 ^ 60) 0 ∧
    LineTable.ofImage? farDown = none ∧ ∀ limits world, Session.create? farDown limits world = none :=
  ⟨by decide, ⟨⟨_, rfl, rfl⟩, fun _ he => absurd he (Nat.not_lt_zero _)⟩, rfl, fun _ _ => rfl⟩

end PseudoVm
