import Mathlib.Data.List.TakeWhile
import PseudoVm.Proofs.Library.Prompts
import PseudoVm.Proofs.Text.RecordedLines
/-!
# Text.LineEndings: one text, given as a script and as a stream

Both readers end a line at a line feed and take what is left at the end of the text as a line (`Lines.byLines`).  A
script leaves all carriage returns of a line but one before its line feed, and a stream strips them all
(`Source.handsOut_stream`).  So they hand out the same lines exactly if no line feed has two carriage returns before it
and the text does not end in one (`Source.handsOut_eq_iff`).
-/
namespace PseudoVm

namespace Lines

/-- Induction over the lines of a text: the last may be without a line feed. -/
@[elab_as_elim]
theorem byLines {P : List Char → Prop} (empty : P []) (last : ∀ line, line ≠ [] → '\n' ∉ line → P line)
    (feed : ∀ line rest, '\n' ∉ line → P rest → P (line ++ '\n' :: rest)) (cs : List Char) : P cs := by
  -- stronger, for the part of a line that has been read before
  suffices hread : ∀ line, '\n' ∉ line → P (line ++ cs) from hread [] List.not_mem_nil
  induction cs with
  | nil =>
    intro line hline
    rw [List.append_nil]
    by_cases hempty : line = []
    · exact hempty ▸ empty
    · exact last line hempty hline
  | cons c cs ih =>
    intro line hline
    by_cases hc : c = '\n'
    · exact hc ▸ feed line cs hline (ih [] List.not_mem_nil)
    · have hmore : '\n' ∉ line ++ [c] := by simp [hline, Ne.symm hc]
      have hP := ih _ hmore
      rwa [List.append_assoc] at hP

variable {line rest : List Char}

theorem split_last (hne : line ≠ []) (h : '\n' ∉ line) : split line = [line] := by
  have hread := splitFrom_append h [] []
  rw [List.append_nil, List.append_nil] at hread
  unfold split
  rw [hread, splitFrom, if_neg (by simpa using hne), List.reverse_reverse]

theorem split_feed (h : '\n' ∉ line) : split (line ++ '\n' :: rest) = endLine line.reverse :: split rest := by
  unfold split
  rw [splitFrom_append h, List.append_nil, splitFrom, if_pos rfl]

theorem ne_feed_of_mem (h : '\n' ∉ line) {c : Char} (hc : c ∈ line) : (c != '\n') = true := by
  simpa using fun hfeed : c = '\n' => h (hfeed ▸ hc)

theorem take?_last (hne : line ≠ []) (h : '\n' ∉ line) : take? line = some (line, []) := by
  obtain ⟨c, cs, rfl⟩ := List.exists_cons_of_ne_nil hne
  unfold take?
  rw [List.takeWhile_eq_self_iff.2 fun _ hc => ne_feed_of_mem h hc,
    List.dropWhile_eq_nil_iff.2 fun _ hc => ne_feed_of_mem h hc]

theorem take?_feed (h : '\n' ∉ line) : take? (line ++ '\n' :: rest) = some (line ++ ['\n'], rest) := by
  have htake : (line ++ '\n' :: rest).takeWhile (· != '\n') = line := by
    rw [List.takeWhile_append_of_pos fun _ hc => ne_feed_of_mem h hc, List.takeWhile_cons_of_neg (by simp),
      List.append_nil]
  have hdrop : (line ++ '\n' :: rest).dropWhile (· != '\n') = '\n' :: rest := by
    rw [List.dropWhile_append_of_pos fun _ hc => ne_feed_of_mem h hc, List.dropWhile_cons_of_neg (by simp)]
  unfold take?
  split
  · next hnil => cases line <;> cases hnil
  · rw [htake, hdrop]

theorem endLine_return (line : List Char) : endLine (line ++ ['\r']).reverse = line := by
  rw [List.reverse_append]
  exact List.reverse_reverse line

theorem trimEnd_return (line : List Char) : trimEnd (line ++ ['\r']) = trimEnd line := by
  unfold trimEnd
  rw [List.reverse_append]
  rfl

theorem trimEnd_endLine (line : List Char) : trimEnd (endLine line.reverse) = trimEnd line := by
  by_cases hend : line.getLast? = some '\r'
  · obtain ⟨before, rfl⟩ := List.getLast?_eq_some_iff.1 hend
    rw [endLine_return, trimEnd_return]
  · rw [endLine_reverse hend]

theorem trimEnd_eq_self_iff (h : '\n' ∉ line) : trimEnd line = line ↔ line.getLast? ≠ some '\r' := by
  constructor
  · intro hself hend
    rw [← hself] at hend
    cases isEnding_getLast?_trimEnd hend
  · intro hend
    cases hlast : line.getLast? with
    | none =>
      rw [List.getLast?_eq_none_iff.1 hlast]
      rfl
    | some c =>
      obtain ⟨before, rfl⟩ := List.getLast?_eq_some_iff.1 hlast
      have hc : isEnding c = false := by
        have hfeed : c ≠ '\n' := fun hc => h (by simp [hc])
        have hreturn : c ≠ '\r' := fun hc => hend (hc ▸ hlast)
        simp [isEnding, hfeed, hreturn]
      unfold trimEnd
      rw [List.reverse_append, List.reverse_singleton, List.singleton_append, List.dropWhile_cons_of_neg (by simp [hc]),
        List.reverse_cons, List.reverse_reverse]

theorem feedless_of_mem_split : ∀ {cs line : List Char}, line ∈ split cs → '\n' ∉ line := by
  intro cs
  induction cs using byLines with
  | empty => exact fun hmem => absurd hmem List.not_mem_nil
  | last l hne hl =>
    intro line hmem
    rw [split_last hne hl] at hmem
    exact List.mem_singleton.1 hmem ▸ hl
  | feed l rest hl ih =>
    intro line hmem
    rw [split_feed hl] at hmem
    obtain rfl | hmem := List.mem_cons.1 hmem
    · by_cases hend : l.getLast? = some '\r'
      · obtain ⟨before, rfl⟩ := List.getLast?_eq_some_iff.1 hend
        rw [endLine_return]
        exact fun hfeed => hl (List.mem_append_left _ hfeed)
      · rwa [endLine_reverse hend]
    · exact ih hmem

/-! ## Endings that both readers strip whole -/

/-- No line feed has two carriage returns before it, and the text does not end in a carriage return. -/
structure CleanEndings (cs : List Char) : Prop where
  feeds : ¬ ['\r', '\r', '\n'] <:+: cs
  last : ¬ ['\r'] <:+ cs

/-- What ends in a line feed and has no other lies at the end of the first line of a text, or behind it. -/
theorem infix_feed_iff {part : List Char} (hpart : '\n' ∉ part) (h : '\n' ∉ line) (rest : List Char) :
    part ++ ['\n'] <:+: line ++ '\n' :: rest ↔ part <:+ line ∨ part ++ ['\n'] <:+: rest := by
  constructor
  · rintro ⟨before, after, heq⟩
    have heq' : (before ++ part) ++ ('\n' :: after) = line ++ ('\n' :: rest) := by simpa using heq
    obtain ⟨more, hline, hmore⟩ | ⟨more, hbefore, hmore⟩ := List.append_eq_append_iff.1 heq'
    · cases more with
      | nil =>
        rw [List.append_nil] at hline
        exact .inl ⟨before, hline.symm⟩
      | cons c more =>
        obtain rfl := (List.cons.inj hmore).1
        exact absurd (by rw [hline]; simp) h
    · cases more with
      | nil =>
        rw [List.append_nil] at hbefore
        exact .inl ⟨before, hbefore⟩
      | cons c more =>
        -- the line feed behind the line lies before the part, which has none
        obtain ⟨rfl, hrest⟩ := List.cons.inj hmore
        obtain ⟨skipped, -, hskipped⟩ | ⟨skipped, -, hskipped⟩ := List.append_eq_append_iff.1 hbefore
        · exact absurd (by rw [hskipped]; simp) hpart
        · cases skipped with
          | nil => exact absurd (by rw [← List.nil_append part, ← hskipped]; simp) hpart
          | cons c skipped =>
            obtain ⟨rfl, rfl⟩ := List.cons.inj hskipped
            right
            exact ⟨skipped, after, by rw [hrest]; simp⟩
  · rintro (⟨before, rfl⟩ | ⟨before, after, rfl⟩)
    · exact ⟨before, rest, by simp⟩
    · exact ⟨line ++ '\n' :: before, after, by simp⟩

theorem cleanEndings_last (h : '\n' ∉ line) : CleanEndings line ↔ line.getLast? ≠ some '\r' := by
  rw [Ne, ← List.singleton_suffix_iff_getLast?_eq_some]
  exact ⟨CleanEndings.last, fun hlast => ⟨fun hfeed => h (hfeed.subset (by simp)), hlast⟩⟩

theorem cleanEndings_feed (h : '\n' ∉ line) :
    CleanEndings (line ++ '\n' :: rest) ↔ ¬ ['\r', '\r'] <:+ line ∧ CleanEndings rest := by
  have hreturnless : '\n' ∉ ['\r', '\r'] := by decide
  have hfeeds := infix_feed_iff hreturnless h rest
  have hlast : ['\r'] <:+ line ++ '\n' :: rest ↔ ['\r'] <:+ rest := by
    rw [List.singleton_suffix_iff_getLast?_eq_some, List.singleton_suffix_iff_getLast?_eq_some, List.getLast?_append,
      List.getLast?_cons]
    cases rest.getLast? <;> simp
  constructor
  · intro hclean
    exact ⟨fun hreturns => hclean.feeds (hfeeds.2 (.inl hreturns)),
      fun hrest => hclean.feeds (hfeeds.2 (.inr hrest)), fun hrest => hclean.last (hlast.2 hrest)⟩
  · rintro ⟨hreturns, hrest⟩
    exact ⟨fun hfeed => (hfeeds.1 hfeed).elim hreturns hrest.feeds, fun hret => hrest.last (hlast.1 hret)⟩

theorem getLast?_endLine : (endLine line.reverse).getLast? = some '\r' ↔ ['\r', '\r'] <:+ line := by
  by_cases hend : line.getLast? = some '\r'
  · obtain ⟨before, rfl⟩ := List.getLast?_eq_some_iff.1 hend
    rw [endLine_return, ← List.singleton_suffix_iff_getLast?_eq_some]
    constructor
    · rintro ⟨start, rfl⟩
      exact ⟨start, by simp⟩
    · rintro ⟨start, heq⟩
      exact ⟨start, List.append_cancel_right (by simpa using heq)⟩
  · rw [endLine_reverse hend]
    refine ⟨fun h => absurd h hend, ?_⟩
    rintro ⟨before, rfl⟩
    exact absurd (by simp) hend

/-- **Endings are clean exactly if no line of the script ends in a carriage return.** -/
theorem cleanEndings_iff (cs : List Char) :
    CleanEndings cs ↔ ∀ line ∈ split cs, line.getLast? ≠ some '\r' := by
  induction cs using byLines with
  | empty => exact ⟨fun _ line hmem => absurd hmem List.not_mem_nil, fun _ => ⟨by decide, by decide⟩⟩
  | last line hne hline => rw [cleanEndings_last hline, split_last hne hline, List.forall_mem_singleton]
  | feed line rest hline ih =>
    rw [cleanEndings_feed hline, split_feed hline, List.forall_mem_cons, ih, Ne, getLast?_endLine]

end Lines

/-! ## The lines of a source -/

/-- The lines that a source hands out, up to its end. -/
def Source.handsOut (source : Source) : List String :=
  match _h : source.next? with
  | none => []
  | some (line, rest) => line :: rest.handsOut
termination_by source.size
decreasing_by exact Source.size_lt_of_next? _h

namespace Source

theorem handsOut_of_none {source : Source} (h : source.next? = none) : source.handsOut = [] := by
  rw [handsOut]
  split
  · rfl
  · next hsome => rw [h] at hsome; cases hsome

theorem handsOut_of_some {source rest : Source} {line : String} (h : source.next? = some (line, rest)) :
    source.handsOut = line :: rest.handsOut := by
  rw [handsOut]
  split
  · next hnone => rw [h] at hnone; cases hnone
  · next hsome =>
    rw [h] at hsome
    cases hsome
    rfl

theorem handsOut_script (lines : List String) : (script lines).handsOut = lines := by
  induction lines with
  | nil => exact handsOut_of_none rfl
  | cons line lines ih => rw [handsOut_of_some rfl, ih]

/-- **A stream hands out the lines of the text without the carriage returns at their ends.** -/
theorem handsOut_stream (cs : List Char) :
    (stream cs).handsOut = (Lines.split cs).map fun line => String.ofList (Lines.trimEnd line) := by
  have hnext {cs line rest : List Char} (h : Lines.take? cs = some (line, rest)) :
      (stream cs).next? = some (String.ofList (Lines.trimEnd line), stream rest) := by
    show (Lines.take? cs).map _ = _
    rw [h]
    rfl
  induction cs using Lines.byLines with
  | empty => exact handsOut_of_none rfl
  | last line hne hline =>
    rw [handsOut_of_some (hnext (Lines.take?_last hne hline)), handsOut_of_none rfl, Lines.split_last hne hline]
    rfl
  | feed line rest hline ih =>
    rw [handsOut_of_some (hnext (Lines.take?_feed hline)), ih, Lines.split_feed hline, List.map_cons,
      Lines.trimEnd_feed, Lines.trimEnd_endLine]

theorem handsOut_ofScript (text : String) : (ofScript text).handsOut = lines text := handsOut_script _

theorem handsOut_ofStream (text : String) : (ofStream text).handsOut = (lines text).map trimLineEnd := by
  rw [ofStream, handsOut_stream, lines, List.map_map]
  exact List.map_congr_left fun line _ => by simp [trimLineEnd]

/-- **A text is the same lines both ways exactly if its endings are clean.** -/
theorem handsOut_eq_iff (text : String) :
    (ofStream text).handsOut = (ofScript text).handsOut ↔ Lines.CleanEndings text.toList := by
  rw [handsOut_ofStream, handsOut_ofScript, Lines.cleanEndings_iff, lines, List.map_map]
  rw [List.map_inj_left]
  refine forall₂_congr fun line hmem => ?_
  rw [← Lines.trimEnd_eq_self_iff (Lines.feedless_of_mem_split hmem), ← String.ofList_inj]
  simp [trimLineEnd]

end Source

end PseudoVm
