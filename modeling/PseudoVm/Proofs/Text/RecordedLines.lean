import PseudoVm.World.Console
/-!
# Text.RecordedLines: lines read from a stream are read back from their record

A stream strips every carriage return and line feed at the end of a line, and a text that is cut at once strips one
line feed and one carriage return.  A line that a stream handed out has no line feed and no carriage return at its
end (`Lines.Whole`), so nothing is lost when such lines are written down, each with a line feed, and cut again
(`lines_transcript`).
-/
namespace PseudoVm

namespace Lines

/-- A line that neither reader would cut or strip. -/
structure Whole (line : List Char) : Prop where
  feedless : '\n' ∉ line
  ending : line.getLast? ≠ some '\r'

theorem isEnding_getLast?_trimEnd {line : List Char} {c : Char} (h : (trimEnd line).getLast? = some c) :
    isEnding c = false := by
  unfold trimEnd at h
  rw [List.getLast?_reverse] at h
  have hhead := List.head?_dropWhile_not isEnding line.reverse
  rw [h] at hhead
  exact hhead

theorem trimEnd_feed (line : List Char) : trimEnd (line ++ ['\n']) = trimEnd line := by
  unfold trimEnd
  rw [List.reverse_append]
  rfl

theorem mem_of_mem_trimEnd {line : List Char} {c : Char} (h : c ∈ trimEnd line) : c ∈ line := by
  have hdrop : c ∈ line.reverse.dropWhile isEnding := List.mem_reverse.1 h
  exact List.mem_reverse.1 ((List.dropWhile_sublist _).mem hdrop)

theorem whole_trimEnd {line : List Char} (h : '\n' ∉ line) : Whole (trimEnd line) := by
  refine ⟨fun hmem => h (mem_of_mem_trimEnd hmem), fun hlast => ?_⟩
  have hend := isEnding_getLast?_trimEnd hlast
  cases hend

theorem whole_of_take? {cs line rest : List Char} (h : take? cs = some (line, rest)) : Whole (trimEnd line) := by
  cases cs with
  | nil => cases h
  | cons c cs =>
    have hfeed : '\n' ∉ (c :: cs).takeWhile (· != '\n') := by
      intro hmem
      have hne := List.all_eq_true.1 List.all_takeWhile '\n' hmem
      simp at hne
    unfold take? at h
    dsimp only at h
    cases hd : (c :: cs).dropWhile (· != '\n') with
    | nil =>
      rw [hd] at h
      cases h
      exact whole_trimEnd hfeed
    | cons feed rest =>
      have hhead := List.head?_dropWhile_not (· != '\n') (c :: cs)
      rw [hd] at h hhead
      have hf : feed = '\n' := by simpa using hhead
      cases h
      rw [hf, trimEnd_feed]
      exact whole_trimEnd hfeed

theorem endLine_reverse {line : List Char} (h : line.getLast? ≠ some '\r') : endLine line.reverse = line := by
  unfold endLine
  split
  · rename_i before hline
    rw [← List.head?_reverse, hline] at h
    exact absurd rfl h
  · exact List.reverse_reverse line

theorem splitFrom_append {line : List Char} (h : '\n' ∉ line) (before rest : List Char) :
    splitFrom before (line ++ rest) = splitFrom (line.reverse ++ before) rest := by
  induction line generalizing before with
  | nil => rfl
  | cons c line ih =>
    have hc : c ≠ '\n' := fun hc => h (hc ▸ List.mem_cons_self)
    have hline : '\n' ∉ line := fun hmem => h (List.mem_cons_of_mem c hmem)
    rw [List.cons_append, splitFrom, if_neg hc, ih hline]
    simp

/-- **Whole lines, each with a line feed, are cut into themselves.** -/
theorem split_flatMap {ls : List (List Char)} (h : ∀ line ∈ ls, Whole line) :
    split (ls.flatMap (· ++ ['\n'])) = ls := by
  induction ls with
  | nil => rfl
  | cons line ls ih =>
    have hline := h line List.mem_cons_self
    have hls := ih fun l hl => h l (List.mem_cons_of_mem line hl)
    unfold split at hls ⊢
    rw [List.flatMap_cons, List.append_assoc, splitFrom_append hline.feedless, List.append_nil, List.cons_append,
      List.nil_append, splitFrom, if_pos rfl, endLine_reverse hline.ending, hls]

end Lines

theorem toList_transcript (c : Console) :
    c.transcript.toList = (c.received.reverse.map String.toList).flatMap (· ++ ['\n']) := by
  rw [Console.transcript, String.toList_join, List.flatMap_map, List.flatMap_map]
  simp only [String.toList_append]
  rfl

/-- **The lines of a record are the lines that were handed out**, if they were whole. -/
theorem lines_transcript {c : Console} (h : ∀ line ∈ c.received, Lines.Whole line.toList) :
    lines c.transcript = c.received.reverse := by
  have hwhole : ∀ line ∈ c.received.reverse.map String.toList, Lines.Whole line := by
    intro line hline
    obtain ⟨s, hs, rfl⟩ := List.mem_map.1 hline
    exact h s (List.mem_reverse.1 hs)
  rw [lines, toList_transcript, Lines.split_flatMap hwhole, List.map_map]
  simp [Function.comp_def]

theorem transcript_eq_empty_iff (c : Console) : c.transcript = "" ↔ c.received = [] := by
  rw [← String.toList_inj, toList_transcript]
  cases c.received <;> simp

end PseudoVm
