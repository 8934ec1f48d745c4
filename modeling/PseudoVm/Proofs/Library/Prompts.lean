import Mathlib.Data.List.Basic
import PseudoVm.Library.Dialogue
/-!
# Library.Prompts: asking comes to an end

An input function asks again as long as it does not understand the answer (`Dialogue.Asks`).  Nothing bounds how often,
but every answer takes a line of the input, and there are finitely many: `Dialogue.ask` follows the loop to its end, and
its count of tries never cuts it short (`Dialogue.asks_ask`).
-/
namespace PseudoVm

theorem Lines.length_lt_of_take? {cs line rest : List Char} (h : take? cs = some (line, rest)) :
    rest.length < cs.length := by
  cases cs with
  | nil => cases h
  | cons c cs =>
    unfold take? at h
    dsimp only at h
    cases hd : (c :: cs).dropWhile (· != '\n') with
    | nil =>
      rw [hd] at h
      cases h
      exact Nat.succ_pos _
    | cons feed after =>
      have hle := (List.dropWhile_sublist (l := c :: cs) (· != '\n')).length_le
      rw [hd] at h hle
      cases h
      exact hle

/-- **A line that is handed out is gone.** -/
theorem Source.size_lt_of_next? {source rest : Source} {line : String} (h : source.next? = some (line, rest)) :
    rest.size < source.size := by
  cases source with
  | script lines =>
    cases lines with
    | nil => cases h
    | cons line lines =>
      cases h
      exact Nat.lt_succ_self _
  | stream cs =>
    obtain ⟨⟨taken, after⟩, htake, h⟩ := Option.map_eq_some_iff.1 h
    cases h
    exact Lines.length_lt_of_take? htake

theorem Console.size_lt_of_readLine {c c' : Console} {line : String} (h : c.readLine = (.ok line, c')) :
    c'.source.size < c.source.size := by
  unfold readLine at h
  cases hn : c.source.next? with
  | none =>
    rw [hn] at h
    cases h
  | some found =>
    rw [hn] at h
    cases h
    exact Source.size_lt_of_next? hn

namespace Library.Dialogue

variable {α : Type} {d : Dialogue α}

/-- **The loop of an input function**: from a console it comes to an answer, or to the end of the input. -/
inductive Asks (d : Dialogue α) : Console → Except Fault α × Console → Prop
  | over {c c' : Console} {e : Fault} (hr : (c.write d.prompt).readLine = (.error e, c')) : Asks d c (.error e, c')
  | understood {c c' : Console} {line : String} {v : α} (hr : (c.write d.prompt).readLine = (.ok line, c'))
      (hv : d.understand line = some v) : Asks d c (.ok v, c')
  | again {c c' : Console} {line : String} {r : Except Fault α × Console}
      (hr : (c.write d.prompt).readLine = (.ok line, c')) (hv : d.understand line = none)
      (ha : Asks d (c'.write d.complaint) r) : Asks d c r

theorem Asks.unique {c : Console} {r r' : Except Fault α × Console} (h : d.Asks c r) (h' : d.Asks c r') : r = r' := by
  induction h with
  | «over» hr =>
    cases h' with
    | «over» hr' => rw [hr] at hr'; cases hr'; rfl
    | understood hr' | again hr' => rw [hr] at hr'; cases hr'
  | understood hr hv =>
    cases h' with
    | «over» hr' => rw [hr] at hr'; cases hr'
    | understood hr' hv' => rw [hr] at hr'; cases hr'; rw [hv] at hv'; cases hv'; rfl
    | again hr' hv' => rw [hr] at hr'; cases hr'; rw [hv] at hv'; cases hv'
  | again hr hv _ ih =>
    cases h' with
    | «over» hr' => rw [hr] at hr'; cases hr'
    | understood hr' hv' => rw [hr] at hr'; cases hr'; rw [hv] at hv'; cases hv'
    | again hr' hv' ha' => rw [hr] at hr'; cases hr'; exact ih ha'

theorem asks_askFor : ∀ (tries : Nat) {c : Console}, c.source.size < tries → d.Asks c (d.askFor tries c)
  | 0, _, h => absurd h (Nat.not_lt_zero _)
  | tries + 1, c, h => by
    unfold askFor
    dsimp only
    split
    · rename_i e c' hr
      exact .over hr
    · rename_i line c' hr
      split
      · rename_i v hv
        exact .understood hr hv
      · rename_i hv
        -- writing the prompt has taken nothing from the input
        have hlt : c'.source.size < (c.write d.prompt).source.size := Console.size_lt_of_readLine hr
        exact .again hr hv (asks_askFor tries (Nat.lt_of_lt_of_le hlt (Nat.le_of_lt_succ h)))

/-- **Asking ends**, and it ends where the loop does. -/
theorem asks_ask (d : Dialogue α) (c : Console) : d.Asks c (d.ask c) := asks_askFor _ (Nat.lt_succ_self _)

end Library.Dialogue

end PseudoVm
