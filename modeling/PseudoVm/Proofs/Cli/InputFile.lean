import PseudoVm.Proofs.Cli.GoldenReplay
import PseudoVm.Proofs.Machine.ReadAhead
/-!
# Cli.InputFile: an input file beside the same text on the console

A check reads its input file as a script, and a run reads the console as a stream.  Where the endings of the text are
clean both hand out the same lines, so the check sees what the run on the console does (`test_eq_judge`).  A text that
ends in a carriage return shows that they need not.
-/
namespace PseudoVm

namespace Cli

/-- What a check makes of a run: the output has to be what is wanted, and it is not shown. -/
def judge (want : String) (ran : Finish) : Finish :=
  if ran.status = some 0 then
    if ran.output = want then ⟨some 0, "PASSED\n", "", ran.disk⟩
    else ⟨some 1, "", "wrong output: got=\n" ++ ran.output ++ "\nwant=\n" ++ want ++ "\n", ran.disk⟩
  else { ran with output := "" }

variable {host : Host} {path text want : String} {image : Image} {limits : Limits} {seed : Option Nat}

theorem worldOf_script (hclean : Lines.CleanEndings text.toList) :
    worldOf host seed (.ofScript text) = (worldOf host seed (.ofStream text)).readAhead := by
  have hlines : (Source.ofStream text).handsOut = lines text :=
    ((Source.handsOut_eq_iff text).2 hclean).trans (Source.handsOut_ofScript text)
  show _ = { worldOf host seed (.ofStream text) with
    console := { source := .script (Source.ofStream text).handsOut } }
  rw [hlines]
  rfl

theorem compare_eq_judge (hclean : Lines.CleanEndings text.toList)
    (hload : loadImage host.disk path = .ok image) :
    (run { host with input := text } path limits seed none).map (judge want) =
      .ok (compare host path image limits seed text want) := by
  have hexecute := execute_readAhead image limits (worldOf host seed (.ofStream text))
  rw [← worldOf_script hclean] at hexecute
  have hsame : worldOf { host with input := text } seed (.ofStream text) = worldOf host seed (.ofStream text) := rfl
  simp only [run, compare, hload, bind, Except.bind, hexecute, hsame]
  cases execute image limits (worldOf host seed (.ofStream text)) with
  | mk report world =>
    obtain a | _ | p := report
    · cases a <;> rfl
    · show Except.ok (judge want ⟨some 0, world.console.output, "", world.disk⟩) = _
      rw [judge, if_pos rfl]
      rfl
    · rfl

/-- **A check finishes as it would if the program had been run on the same text on the console**, if the endings of
the text are clean. -/
theorem test_eq_judge {found : Option String} (hclean : Lines.CleanEndings (found.getD "").toList)
    (hwant : loadOptionalText host.disk (outputPath path) = .ok (some want))
    (hfound : loadOptionalText host.disk (inputPath path) = .ok found) :
    test host path limits seed = (run { host with input := found.getD "" } path limits seed none).map (judge want) := by
  cases hload : loadImage host.disk path with
  | error f => simp only [test, run, hload, bind, Except.bind, Except.map]
  | ok image =>
    rw [compare_eq_judge hclean hload]
    simp only [test, hload, hwant, hfound, bind, Except.bind]
    rfl

/-- **An input file feeds a program what the same text on the console feeds it**, exactly if the endings of the text are
clean.  A script hands out the lines of a text and a stream the same lines without the carriage returns at their ends;
where these agree, a check judges what the run on the console does. -/
theorem input_file_feeds (text : String) :
    (Source.ofScript text).handsOut = lines text ∧
    (Source.ofStream text).handsOut = (lines text).map trimLineEnd ∧
    ((Source.ofStream text).handsOut = (Source.ofScript text).handsOut ↔ Lines.CleanEndings text.toList) ∧
    (Lines.CleanEndings text.toList → ∀ (host : Host) (path want : String) (found : Option String) (limits : Limits)
      (seed : Option Nat), found.getD "" = text →
      loadOptionalText host.disk (outputPath path) = .ok (some want) →
      loadOptionalText host.disk (inputPath path) = .ok found →
      test host path limits seed = (run { host with input := text } path limits seed none).map (judge want)) := by
  refine ⟨Source.handsOut_ofScript text, Source.handsOut_ofStream text, Source.handsOut_eq_iff text, ?_⟩
  rintro hclean host path want found limits seed rfl hwant hfound
  exact test_eq_judge hclean hwant hfound

/-- A host with the program that shows the line that it reads, with an input file for it and with what it is expected
to show. -/
def echoFiles (input want : String) : Host :=
  hostWith (bareText "[[1,1],\x7b\"LibCall\":[3,0]\x7d],[[1,1],\x7b\"LibCall\":[0,1]\x7d],[[1,1],\"End\"]")
    [(["p.in"], .file (bytesOf input)), (["p.out"], .file (bytesOf want))] ""

theorem loadImage_echoFiles (input want : String) : loadImage (echoFiles input want).disk "p.json" = .ok echo :=
  loadImage_hostWith parse_echo rfl (by cbv)

theorem loadOptionalText_echoFiles (input want : String) :
    loadOptionalText (echoFiles input want).disk (outputPath "p.json") = .ok (some want) ∧
    loadOptionalText (echoFiles input want).disk (inputPath "p.json") = .ok (some input) := by
  have hwant : (echoFiles input want).disk.Leads "p.out" ["p.out"] (bytesOf want) :=
    ⟨⟨["p.out"], by cbv, rfl⟩, by cbv, rfl⟩
  have hinput : (echoFiles input want).disk.Leads "p.in" ["p.in"] (bytesOf input) :=
    ⟨⟨["p.in"], by cbv, rfl⟩, by cbv, rfl⟩
  unfold loadOptionalText
  rw [outputPath_hosted, inputPath_hosted, hwant.readText, hinput.readText]
  exact ⟨rfl, rfl⟩

/-- The program shows the line and is done, whatever the rest of the world is. -/
def Echoes (source rest : Source) (line : String) : Prop := ∀ (random : Random) (disk : Disk),
  execute echo { maxInstructions := 9 } { console := ⟨source, [], ""⟩, random := random, disk := disk } =
    (.ok none, { console := ⟨rest, [line], "string> " ++ line ++ "\n"⟩, random := random, disk := disk })

theorem run_echoFiles {input want text line : String} {rest : Source} (h : Echoes (.ofStream text) rest line) :
    run { echoFiles input want with input := text } "p.json" { maxInstructions := 9 } (some 1) none =
      .ok ⟨some 0, "string> " ++ line ++ "\n", "", (echoFiles input want).disk⟩ := by
  have hworld : worldOf { echoFiles input want with input := text } (some 1) (.ofStream text) =
      { console := ⟨.ofStream text, [], ""⟩, random := Random.ofSeed 1, disk := (echoFiles input want).disk } := rfl
  simp only [run, loadImage_echoFiles, bind, Except.bind, hworld, h (Random.ofSeed 1) (echoFiles input want).disk]
  rfl

theorem test_echoFiles {input want line : String} {rest : Source} (h : Echoes (.ofScript input) rest line) :
    test (echoFiles input want) "p.json" { maxInstructions := 9 } (some 1) =
      .ok (judge want ⟨some 0, "string> " ++ line ++ "\n", "", (echoFiles input want).disk⟩) := by
  have hworld : worldOf (echoFiles input want) (some 1) (.ofScript input) =
      { console := ⟨.ofScript input, [], ""⟩, random := Random.ofSeed 1, disk := (echoFiles input want).disk } := rfl
  obtain ⟨hout, hin⟩ := loadOptionalText_echoFiles input want
  simp only [test, compare, loadImage_echoFiles, hout, hin, bind, Except.bind, Option.getD_some, hworld,
    h (Random.ofSeed 1) (echoFiles input want).disk]
  rfl

/-- A line with a carriage return inside and one before its line feed passes as it would on the console. -/
theorem input_file_feeds_echo :
    Lines.CleanEndings "a\rb\r\n".toList ∧
    test (echoFiles "a\rb\r\n" "string> a\rb\n") "p.json" { maxInstructions := 9 } (some 1) =
      .ok ⟨some 0, "PASSED\n", "", (echoFiles "a\rb\r\n" "string> a\rb\n").disk⟩ := by
  have hclean : Lines.CleanEndings "a\rb\r\n".toList := ⟨by decide, by decide⟩
  have hechoes : Echoes (.ofStream "a\rb\r\n") (.ofStream "") "a\rb" := by
    intro random disk
    cbv
  obtain ⟨hout, hin⟩ := loadOptionalText_echoFiles "a\rb\r\n" "string> a\rb\n"
  refine ⟨hclean, ?_⟩
  rw [(input_file_feeds "a\rb\r\n").2.2.2 hclean _ _ _ _ _ _ rfl hout hin, run_echoFiles hechoes]
  rfl

/-- **A text that ends in a carriage return is another line from an input file than from the console.**  What the
program shows on the console is wanted, and the check fails. -/
theorem input_file_keeps_return :
    (Source.ofStream "a\r").handsOut = ["a"] ∧ (Source.ofScript "a\r").handsOut = ["a\r"] ∧
    run { echoFiles "a\r" "string> a\n" with input := "a\r" } "p.json" { maxInstructions := 9 } (some 1) none =
      .ok ⟨some 0, "string> a\n", "", (echoFiles "a\r" "string> a\n").disk⟩ ∧
    test (echoFiles "a\r" "string> a\n") "p.json" { maxInstructions := 9 } (some 1) =
      .ok ⟨some 1, "", "wrong output: got=\nstring> a\r\n\nwant=\nstring> a\n\n", (echoFiles "a\r" "string> a\n").disk⟩ := by
  have hstream : Echoes (.ofStream "a\r") (.ofStream "") "a" := by
    intro random disk
    cbv
  have hscript : Echoes (.ofScript "a\r") (.ofScript "") "a\r" := by
    intro random disk
    cbv
  refine ⟨?_, ?_, run_echoFiles hstream, ?_⟩
  · rw [Source.handsOut_ofStream]
    decide
  · rw [Source.handsOut_ofScript]
    decide
  · rw [test_echoFiles hscript]
    rfl

end Cli

end PseudoVm
