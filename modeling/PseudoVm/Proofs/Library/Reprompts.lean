import PseudoVm.Library.Call
import PseudoVm.Proofs.Library.Prompts
import PseudoVm.Proofs.Number.Spelling
/-!
# Library.Reprompts: asking until a line is understood

On a queue of lines the loop of an input function (`Dialogue.Asks`) goes through the lines from the front: each that is
not understood is gone and has been complained about, and the first that is understood, or the end of the queue, ends
the loop (`Dialogue.ask_understood`, `Dialogue.ask_over`).  `Reprompts` says this of a function with its texts and the
lines that it accepts.
-/
namespace PseudoVm

namespace Library

namespace Dialogue

variable {α : Type} (d : Dialogue α)

/-- What is written for so many lines that are not understood. -/
def refusals (d : Dialogue α) (n : Nat) : String := String.join (List.replicate n (d.prompt ++ d.complaint))

theorem refusals_succ (n : Nat) : d.refusals (n + 1) = d.prompt ++ d.complaint ++ d.refusals n := by
  rw [refusals, List.replicate_succ, String.join_cons]
  rfl

theorem readLine_script {c : Console} {line : String} {rest : List String} (h : c.source = .script (line :: rest))
    (text : String) : (c.write text).readLine =
      (.ok line, ⟨.script rest, line :: c.received, c.output ++ text⟩) := by
  simp [Console.readLine, Console.write, h, Source.next?]

variable {d}

theorem Asks.refused {before after : List String} {r : Except Fault α × Console} : ∀ {received : List String}
    {output : String}, (∀ line ∈ before, d.understand line = none) →
      d.Asks ⟨.script after, before.reverse ++ received, output ++ d.refusals before.length⟩ r →
      d.Asks ⟨.script (before ++ after), received, output⟩ r := by
  induction before with
  | nil =>
    intro received output _ h
    simpa [refusals] using h
  | cons line before ih =>
    intro received output hnone h
    obtain ⟨hline, hbefore⟩ := List.forall_mem_cons.1 hnone
    refine .again (readLine_script rfl _) hline (ih hbefore ?_)
    simpa [refusals_succ, String.append_assoc] using h

variable {before after received : List String} {line output : String}

theorem ask_understood {v : α} (hbefore : ∀ l ∈ before, d.understand l = none) (hline : d.understand line = some v) :
    d.ask ⟨.script (before ++ line :: after), received, output⟩ =
      (.ok v, ⟨.script after, line :: (before.reverse ++ received),
        output ++ d.refusals before.length ++ d.prompt⟩) :=
  (asks_ask d _).unique (.refused hbefore (.understood (readLine_script rfl _) hline))

theorem ask_over {lines : List String} (h : ∀ l ∈ lines, d.understand l = none) :
    d.ask ⟨.script lines, received, output⟩ =
      (.error (.io "unexpected end of input"), ⟨.script [], lines.reverse ++ received,
        output ++ d.refusals lines.length ++ d.prompt⟩) := by
  have hasks : d.Asks ⟨.script (lines ++ []), received, output⟩ _ := .refused h (.over rfl)
  rw [List.append_nil] at hasks
  exact (asks_ask d _).unique hasks

end Dialogue

theorem onlyByte?_eq_some_iff {line : String} {b : UInt8} : onlyByte? line = some b ↔ bytesOf line = [b] := by
  unfold onlyByte?
  split
  · next b' hb => rw [hb]; simp
  · next hb => exact ⟨nofun, fun h => absurd h (hb b)⟩

theorem truth?_eq_some_iff {line : String} {b : Bool} : truth? line = some b ↔
    b = true ∧ line ∈ ["1", "t", "T", "TRUE", "true", "True"] ∨
      b = false ∧ line ∈ ["0", "f", "F", "FALSE", "false", "False"] := by
  have hdisjoint : ∀ l ∈ ["0", "f", "F", "FALSE", "false", "False"],
      l ∉ ["1", "t", "T", "TRUE", "true", "True"] := by decide
  unfold truth?
  split
  · next htrue =>
    have hnot : line ∉ ["0", "f", "F", "FALSE", "false", "False"] := fun h => hdisjoint line h htrue
    cases b <;> simp [htrue, hnot]
  · next htrue =>
    split
    · next hfalse => cases b <;> simp [htrue, hfalse]
    · next hfalse => simp [htrue, hfalse]

/-- A function called without arguments asks with `prompt` for every line of the queue up to the first that it accepts,
and answers those before it with `complaint`; if it accepts none, it has asked once more at the end of the input. -/
def Reprompts (f : LibraryFunction) (prompt complaint : String) (Accepts : String → Value → Prop) : Prop :=
  ∀ (w : World) (lines : List String), w.console.source = .script lines →
    (∀ before line after v, lines = before ++ line :: after → (∀ l ∈ before, ∀ u, ¬ Accepts l u) → Accepts line v →
      call f [] w = .ok (some v) { w with console :=
        { source := .script after
          received := line :: (before.reverse ++ w.console.received)
          output := w.console.output ++ String.join (List.replicate before.length (prompt ++ complaint)) ++ prompt } }) ∧
    ((∀ l ∈ lines, ∀ u, ¬ Accepts l u) →
      call f [] w = .error (.fault (.io "unexpected end of input")) { w with console :=
        { source := .script []
          received := lines.reverse ++ w.console.received
          output := w.console.output ++ String.join (List.replicate lines.length (prompt ++ complaint)) ++ prompt } })

theorem reprompts_of_ask {α : Type} {f : LibraryFunction} {d : Dialogue α} {value : α → Value}
    {Accepts : String → Value → Prop} (hcall : ∀ w, call f [] w = ask f.name d value [] w)
    (haccepts : ∀ line v, Accepts line v ↔ ∃ a, d.understand line = some a ∧ v = value a) :
    Reprompts f d.prompt d.complaint Accepts := by
  have hnone : ∀ {lines : List String}, (∀ l ∈ lines, ∀ u, ¬ Accepts l u) → ∀ l ∈ lines, d.understand l = none := by
    intro lines h l hl
    rw [Option.eq_none_iff_forall_ne_some]
    exact fun a ha => h l hl _ ((haccepts l _).2 ⟨a, ha, rfl⟩)
  rintro ⟨heap, ⟨source, received, output⟩, random, disk, files, released⟩ lines rfl
  refine ⟨fun before line after v hlines hbefore hline => ?_, fun hlines => ?_⟩
  · obtain ⟨a, ha, rfl⟩ := (haccepts line v).1 hline
    rw [hcall, ask, hlines]
    simp only [noArguments, Dialogue.ask_understood (hnone hbefore) ha]
    rfl
  · rw [hcall, ask]
    simp only [noArguments, Dialogue.ask_over (hnone hlines)]
    rfl

/-- **The input functions ask until a line is understood.**  What they write and take is the same for all four of them;
each accepts lines of its own kind. -/
theorem input_functions_reprompt :
    Reprompts .inputInteger "integer> " "error, invalid integer, try again\n"
      (fun line v => ∃ n : Int64, Numeral.SpellsInt line.toList n.toInt ∧ v = .int n) ∧
    Reprompts .inputReal "real> " "error, invalid real, try again\n"
      (fun line v => ∃ x, RealText.read line.toList = .ok x ∧ v = .real x) ∧
    Reprompts .inputCharacter "character> " "error, input exactly 1 character, try again\n"
      (fun line v => ∃ b, bytesOf line = [b] ∧ v = .char b) ∧
    Reprompts .inputBoolean "boolean> " "error, invalid boolean, try again\n"
      (fun line v => line ∈ ["1", "t", "T", "TRUE", "true", "True"] ∧ v = .bool true ∨
        line ∈ ["0", "f", "F", "FALSE", "false", "False"] ∧ v = .bool false) := by
  refine ⟨reprompts_of_ask (d := integerDialogue) (fun _ => rfl) fun line v => ?_,
    reprompts_of_ask (d := realDialogue) (fun _ => rfl) fun line v => ?_,
    reprompts_of_ask (d := characterDialogue) (fun _ => rfl) fun line v => ?_,
    reprompts_of_ask (d := booleanDialogue) (fun _ => rfl) fun line v => ?_⟩
  · simp only [integerDialogue, Except.toOption_eq_some_iff, Numeral.readInt_eq_ok_iff]
  · simp only [realDialogue, Except.toOption_eq_some_iff]
  · simp only [characterDialogue, onlyByte?_eq_some_iff]
  · simp only [booleanDialogue, truth?_eq_some_iff]
    constructor
    · rintro (⟨hline, rfl⟩ | ⟨hline, rfl⟩)
      · exact ⟨true, .inl ⟨rfl, hline⟩, rfl⟩
      · exact ⟨false, .inr ⟨rfl, hline⟩, rfl⟩
    · rintro ⟨_, ⟨rfl, hline⟩ | ⟨rfl, hline⟩, rfl⟩
      · exact .inl ⟨hline, rfl⟩
      · exact .inr ⟨hline, rfl⟩

/-- Two lines are refused, and the one after them is taken; the last is left for whoever asks next. -/
theorem input_functions_reprompt_third : ∃ w : World, w.console.source = .script ["", "+7x", "-7", "8"] ∧
    call .inputInteger [] w = .ok (some (.int (-7))) { w with console :=
      { source := .script ["8"]
        received := ["-7", "+7x", ""]
        output := "integer> error, invalid integer, try again\ninteger> error, invalid integer, try again\ninteger> " } } := by
  refine ⟨{ console := { source := .script ["", "+7x", "-7", "8"] }, random := ⟨[], 0⟩ }, rfl, ?_⟩
  obtain ⟨htaken, -⟩ := input_functions_reprompt.1
    { console := { source := .script ["", "+7x", "-7", "8"] }, random := ⟨[], 0⟩ } _ rfl
  have hrefused : ∀ {line : String}, (Numeral.readInt line.toList).isOk = false →
      ∀ u : Value, ¬ ∃ n : Int64, Numeral.SpellsInt line.toList n.toInt ∧ u = .int n := by
    rintro line h u ⟨n, hn, -⟩
    rw [Numeral.readInt_eq_ok_iff.2 hn] at h
    cases h
  have hthird : Numeral.SpellsInt "-7".toList (-7 : Int64).toInt := Numeral.readInt_eq_ok_iff.1 (by decide)
  refine (htaken ["", "+7x"] "-7" ["8"] _ rfl ?_ ⟨_, hthird, rfl⟩).trans rfl
  intro line hline
  simp only [List.mem_cons, List.not_mem_nil, or_false] at hline
  rcases hline with rfl | rfl <;> exact hrefused (by decide)

end Library

end PseudoVm
