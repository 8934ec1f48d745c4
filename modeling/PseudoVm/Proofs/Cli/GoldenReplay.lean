import Mathlib
import PseudoVm.Cli.Golden
import PseudoVm.Proofs.Machine.Replay
import PseudoVm.Proofs.World.Siblings
/-!
# Cli.GoldenReplay: what was recorded is reproduced

A run that is recorded leaves what it wrote in one file and the lines that it read, if there were any, in another; both
lie beside the image and are none of each other (`Sited`).  Read back, they are what was written (`lines_transcript`,
`Utf8.text?_bytesOf`), and a run from them goes the same way (`execute_scripted`), so the recording passes
(`capture_replays`).

A recording that read nothing leaves an input of before where it is.  The check reads it all the same, so it has to be a
text (`capture_stale`).
-/
namespace PseudoVm

namespace Cli

open PathName (Leading Plain stemOfImage)

section Files

variable {disk disk' : Disk} {text : String} {path : Path}

theorem loadImage_congr (h : disk'.readText text = disk.readText text) :
    loadImage disk' text = loadImage disk text := by
  unfold loadImage
  rw [h]

theorem loadOptionalText_congr (h : disk'.readText text = disk.readText text) :
    loadOptionalText disk' text = loadOptionalText disk text := by
  unfold loadOptionalText
  rw [h]

theorem loadOptionalText_of_leads {s : String} (h : disk.Leads text path (bytesOf s)) :
    loadOptionalText disk text = .ok (some s) := by
  unfold loadOptionalText
  rw [h.readText]

end Files

/-! ## The files beside an image -/

/-- The image's path, with the directory it lies in and its name. -/
structure Sited (disk : Disk) (path dir base : String) (q : Path) : Prop where
  text : path = dir ++ (base ++ ".json")
  leading : Leading dir
  noSlash : '/' ∉ base.toList
  notUp : base ≠ "."
  hosts : disk.Hosts dir q
  short : (base ++ ".json").utf8ByteSize ≤ 255

namespace Sited

variable {disk : Disk} {path dir base : String} {q : Path}

theorem outputPath_eq (h : Sited disk path dir base q) :
    outputPath path = dir ++ (stemOfImage base ++ "." ++ "out") := by
  rw [h.text]
  exact PathName.withEnding_image h.leading h.noSlash h.notUp (by decide) (by decide)

theorem inputPath_eq (h : Sited disk path dir base q) :
    inputPath path = dir ++ (stemOfImage base ++ "." ++ "in") := by
  rw [h.text]
  exact PathName.withEnding_image h.leading h.noSlash h.notUp (by decide) (by decide)

end Sited

/-- **An image that can be loaded and has no expected output has a place**: it is not called `..json`. -/
theorem exists_sited {disk : Disk} {name : String} {image : Image}
    (hload : loadImage disk (name ++ ".json") = .ok image)
    (hnew : loadOptionalText disk (outputPath (name ++ ".json")) = .ok none) :
    ∃ dir base q, Sited disk (name ++ ".json") dir base q := by
  obtain ⟨dir, base, rfl, hleading, hslash⟩ := PathName.exists_leading name
  rw [String.append_assoc] at hload hnew ⊢
  have hplain := PathName.plain_image hslash
  have hread : ∃ s, disk.readText (dir ++ (base ++ ".json")) = .ok s := by
    unfold loadImage at hload
    cases hread : disk.readText (dir ++ (base ++ ".json")) with
    | error e => rw [hread] at hload; cases hload
    | ok s => exact ⟨s, rfl⟩
  obtain ⟨s, hread⟩ := hread
  obtain ⟨path, hwalk⟩ := Disk.walk_of_readText hread
  obtain ⟨q, hq, -, hlen⟩ := Disk.walk_leading hleading hplain.noSlash hplain.notEmpty hwalk
  refine ⟨dir, base, q, rfl, hleading, hslash, ?_, hq, hlen⟩
  -- The sibling of `..json` is the directory above, which is there but no file.
  rintro rfl
  have hout : outputPath (dir ++ "..json") = dir ++ ".." := PathName.withEnding_up hleading "out"
  have hnew' : loadOptionalText disk (dir ++ "..") = .ok none := hout ▸ hnew
  have hup := @Disk.Hosts.walk disk dir ".." q hq hleading (by decide) (by decide) (by decide)
  have hdir := Disk.readText_of_dir (by simp) hup hq.node?_above
  unfold loadOptionalText at hnew'
  split at hnew'
  · cases hnew'
  · rename_i hread
    exact hdir hread
  · cases hnew'

/-! ## Recording -/

section Recording

variable {host : Host} {path : String} {image : Image} {limits : Limits} {seed : Option Nat}

/-- The lines that a program reads while it is recorded. -/
def linesRead (host : Host) (image : Image) (limits : Limits) (seed : Option Nat) : List String :=
  (execute image limits (worldOf host seed (.ofStream host.input))).2.console.received.reverse

theorem capture_ok {fin : Finish} (h : capture host path image limits seed = fin) (hok : fin.status = some 0) :
    ∃ w, execute image limits (worldOf host seed (.ofStream host.input)) = (.ok none, w) ∧
      recordRun path w = .ok fin.disk := by
  unfold capture at h
  cases hrun : execute image limits (worldOf host seed (.ofStream host.input)) with
  | mk report w =>
    rw [hrun] at h
    dsimp only at h
    match report with
    | .error a => subst h; cases a <;> cases hok
    | .ok (some p) => subst h; cases hok
    | .ok none =>
      dsimp only at h
      cases hrec : recordRun path w with
      | error f => rw [hrec] at h; subst h; cases hok
      | ok disk => rw [hrec] at h; subst h; exact ⟨w, rfl, hrec⟩

theorem record_ok {disk disk' : Disk} {file text : String} (h : record disk file text = .ok disk') :
    disk.writeFile file (bytesOf text) = .ok disk' := by
  unfold record at h
  split at h <;> cases h
  assumption

theorem recordRun_ok {w : World} {disk : Disk} (h : recordRun path w = .ok disk) : ∃ between,
    (if w.console.received = [] then between = w.disk
      else w.disk.writeFile (inputPath path) (bytesOf w.console.transcript) = .ok between) ∧
    between.writeFile (outputPath path) (bytesOf w.console.output) = .ok disk := by
  unfold recordRun at h
  simp only [transcript_eq_empty_iff] at h
  by_cases hread : w.console.received = []
  · rw [if_pos hread] at h
    exact ⟨w.disk, by rw [if_pos hread], record_ok h⟩
  · rw [if_neg hread] at h
    obtain ⟨between, hin, hout⟩ := Disk.bind_ok h
    exact ⟨between, by rw [if_neg hread]; exact record_ok hin, record_ok hout⟩

theorem test_new (hload : loadImage host.disk path = .ok image)
    (hnew : loadOptionalText host.disk (outputPath path) = .ok none) :
    test host path limits seed = .ok (capture host path image limits seed) := by
  simp only [test, hload, hnew, bind, Except.bind]
  rfl

theorem test_passes {want : String} {input : Option String} {w : World} (hload : loadImage host.disk path = .ok image)
    (hwant : loadOptionalText host.disk (outputPath path) = .ok (some want))
    (hinput : loadOptionalText host.disk (inputPath path) = .ok input)
    (hrun : execute image limits (worldOf host seed (.ofScript (input.getD ""))) = (.ok none, w))
    (hout : w.console.output = want) : test host path limits seed = .ok ⟨some 0, "PASSED\n", "", w.disk⟩ := by
  have hpass : compare host path image limits seed (input.getD "") want = ⟨some 0, "PASSED\n", "", w.disk⟩ := by
    unfold compare
    rw [hrun]
    exact if_pos hout
  simp only [test, hload, hwant, hinput, hpass, bind, Except.bind]
  rfl

end Recording

theorem image_ne_sibling {base ending : String} (hlen : ending.length ≤ 3) :
    base ++ ".json" ≠ stemOfImage base ++ "." ++ ending := by
  intro h
  have hfive : ".json".length = 5 := rfl
  have hone : ".".length = 1 := rfl
  have hsize := congrArg String.length h
  rw [String.length_append, String.length_append, String.length_append, hfive, hone] at hsize
  unfold stemOfImage at hsize
  by_cases hempty : base = ""
  · have hzero : "".length = 0 := rfl
    rw [if_pos hempty, hempty, hfive, hzero] at hsize
    omega
  · rw [if_neg hempty] at hsize
    omega

/-- **What lies beside an image once its run is recorded**: the image as it was, the output as expected, and as input
what was read, or what was there if nothing was. -/
theorem recorded_files {path dir base : String} {q : Path} {w : World} {disk : Disk}
    (hs : Sited w.disk path dir base q) (h : recordRun path w = .ok disk) :
    loadImage disk path = loadImage w.disk path ∧
    loadOptionalText disk (outputPath path) = .ok (some w.console.output) ∧
    loadOptionalText disk (inputPath path) =
      if w.console.received = [] then loadOptionalText w.disk (inputPath path)
      else .ok (some w.console.transcript) := by
  obtain ⟨between, hin, hout⟩ := recordRun_ok h
  have himage := PathName.plain_image hs.noSlash
  have hinput := @PathName.plain_sibling base "in" hs.noSlash (by decide) (by decide)
  have houtput := @PathName.plain_sibling base "out" hs.noSlash (by decide) (by decide)
  have hinout : stemOfImage base ++ "." ++ "in" ≠ stemOfImage base ++ "." ++ "out" := by
    intro h
    have hends : "in" = "out" := (String.append_right_inj _).1 h
    exact absurd hends (by decide)
  rw [hs.inputPath_eq] at hin ⊢
  rw [hs.outputPath_eq] at hout ⊢
  by_cases hread : w.console.received = []
  · rw [if_pos hread] at hin ⊢
    subst hin
    obtain ⟨hleads, -, hlen, hothers⟩ := Disk.write_beside hs.leading hs.hosts houtput hout
    -- The output could be written, so its name is not too long, and the input's has a byte less.
    have hshort : (stemOfImage base ++ "." ++ "in").utf8ByteSize ≤ 255 := by
      rw [String.utf8ByteSize_append] at hlen ⊢
      have hends : "in".utf8ByteSize ≤ "out".utf8ByteSize := by decide
      omega
    have hkept := hothers _ himage (image_ne_sibling (by decide)) hs.short
    refine ⟨loadImage_congr (hs.text ▸ hkept), ?_, loadOptionalText_congr (hothers _ hinput hinout hshort)⟩
    exact loadOptionalText_of_leads hleads
  · rw [if_neg hread] at hin ⊢
    obtain ⟨hleads, hhosts, hlen, hothers⟩ := Disk.write_beside hs.leading hs.hosts hinput hin
    obtain ⟨hleads', -, -, hothers'⟩ := Disk.write_beside hs.leading hhosts houtput hout
    have hkept := hothers _ himage (image_ne_sibling (by decide)) hs.short
    have hkept' := hothers' _ himage (image_ne_sibling (by decide)) hs.short
    refine ⟨loadImage_congr (hs.text ▸ hkept'.trans hkept), loadOptionalText_of_leads hleads', ?_⟩
    exact (loadOptionalText_congr (hothers' _ hinput hinout hlen)).trans (loadOptionalText_of_leads hleads)

theorem exists_recording {host : Host} {name : String} {image : Image} {limits : Limits} {seed : Option Nat}
    {fin : Finish} (hload : loadImage host.disk (name ++ ".json") = .ok image) (hfiles : image.UsesNoFiles)
    (hnew : loadOptionalText host.disk (outputPath (name ++ ".json")) = .ok none)
    (htest : test host (name ++ ".json") limits seed = .ok fin) (hok : fin.status = some 0) : ∃ w : World,
    linesRead host image limits seed = w.console.received.reverse ∧
    (∀ line ∈ w.console.received, Lines.Whole line.toList) ∧
    (∀ supply disk, w.console.received.reverse <+: supply →
      execute image limits ((worldOf host seed (.ofStream host.input)).scripted supply disk) =
        (.ok none, w.scripted supply disk)) ∧
    loadImage fin.disk (name ++ ".json") = .ok image ∧
    loadOptionalText fin.disk (outputPath (name ++ ".json")) = .ok (some w.console.output) ∧
    loadOptionalText fin.disk (inputPath (name ++ ".json")) =
      if w.console.received = [] then loadOptionalText host.disk (inputPath (name ++ ".json"))
      else .ok (some w.console.transcript) := by
  obtain ⟨dir, base, q, hsited⟩ := exists_sited hload hnew
  rw [test_new hload hnew] at htest
  injection htest with hfin
  obtain ⟨w, hrun, hrec⟩ := capture_ok hfin hok
  obtain ⟨hconv, hagain⟩ := execute_scripted hfiles rfl hrun
  have hsame : w.disk = host.disk := hconv.disk
  obtain ⟨himage, hout, hin⟩ := recorded_files (hsame ▸ hsited) hrec
  rw [hsame] at himage hin
  have hstream : w.console.OnStream := hconv.console.stream ⟨⟨_, rfl⟩, nofun⟩
  have hlines : linesRead host image limits seed = w.console.received.reverse := by
    unfold linesRead
    rw [hrun]
  exact ⟨w, hlines, hstream.whole, hagain, himage.trans hload, hout, hin⟩

/-- **What was recorded is reproduced**: once a program that uses no files has been recorded, it passes with the same
seed and limits, whatever is on the console.  A program that reads nothing leaves the input that was there before, which
has to be a text then. -/
theorem capture_replays {host host' : Host} {name : String} {image : Image} {limits : Limits} {seed : Nat}
    {fin : Finish} (hload : loadImage host.disk (name ++ ".json") = .ok image) (hfiles : image.UsesNoFiles)
    (hnew : loadOptionalText host.disk (outputPath (name ++ ".json")) = .ok none)
    (hstale : linesRead host image limits (some seed) = [] →
      ∃ old, loadOptionalText host.disk (inputPath (name ++ ".json")) = .ok old)
    (htest : test host (name ++ ".json") limits (some seed) = .ok fin) (hok : fin.status = some 0)
    (hdisk : host'.disk = fin.disk) :
    test host' (name ++ ".json") limits (some seed) = .ok ⟨some 0, "PASSED\n", "", fin.disk⟩ := by
  obtain ⟨w, hlines, hwhole, hagain, himage, hout, hin⟩ := exists_recording hload hfiles hnew htest hok
  -- The lines that the check is given begin with those that were read.
  have hinput : ∃ input, loadOptionalText fin.disk (inputPath (name ++ ".json")) = .ok input ∧
      w.console.received.reverse <+: lines (input.getD "") := by
    by_cases hread : w.console.received = []
    · obtain ⟨old, hold⟩ := hstale (hlines.trans (congrArg List.reverse hread))
      rw [if_pos hread, hold] at hin
      exact ⟨old, hin, by rw [hread]; exact List.nil_prefix⟩
    · rw [if_neg hread] at hin
      have hback : lines w.console.transcript = w.console.received.reverse := lines_transcript hwhole
      exact ⟨_, hin, hback ▸ List.prefix_rfl⟩
  obtain ⟨input, hinput, hcovers⟩ := hinput
  have hworld : worldOf host' (some seed) (.ofScript (input.getD "")) =
      (worldOf host (some seed) (.ofStream host.input)).scripted (lines (input.getD "")) fin.disk :=
    congrArg (fun disk => { worldOf host (some seed) (.ofScript (input.getD "")) with disk := disk }) hdisk
  have hreplay := hagain (lines (input.getD "")) fin.disk hcovers
  rw [← hworld] at hreplay
  rw [← hdisk] at himage hout hinput
  exact test_passes himage hout hinput hreplay rfl

/-- An image of these instructions and nothing else. -/
def bareImage (code : List Op) : Image where
  code := (code.map fun op => ⟨⟨1, 1⟩, op⟩).toArray
  labels := #[]
  strings := #[]
  classes := #[]
  scopes := #[.global []]
  globalScope := 0

/-- Its JSON, in the form without names. -/
def bareJson (code : List Json) : Json :=
  .arr [.int 1, .arr [.arr (code.map fun op => .arr [.arr [.int 1, .int 1], op]), .arr [], .arr [], .arr [],
    .arr [.arr [.str "global", .bool true, .arr [], .arr []]], .int 0]]

/-- The text of that, with the text of the instructions. -/
def bareText (code : String) : String := "[1,[[" ++ code ++ "],[],[],[],[[\"global\",true,[],[]]],0]]"

/-- A host with the text of an image, with other files beside it, and with something on the console. -/
def hostWith (text : String) (others : List (Path × Node)) (input : String) : Host where
  disk := { entries := (["p.json"], .file (bytesOf text)) :: others }
  directory := ""
  env := []
  home := none
  configDir := none
  input := input
  entropy := 0

theorem loadImage_hostWith {text : String} {others : List (Path × Node)} {input : String} {json : Json} {image : Image}
    (hparse : Json.parse? text = some json) (hdecode : Image.ofEnvelope json = .ok image)
    (hvalid : checkImage "p.json" image = .ok image) :
    loadImage (hostWith text others input).disk "p.json" = .ok image := by
  have hleads : (hostWith text others input).disk.Leads "p.json" ["p.json"] (bytesOf text) :=
    ⟨⟨["p.json"], by cbv, rfl⟩, by cbv, rfl⟩
  have hread : Image.read text = .ok image := by
    unfold Image.read
    rw [hparse]
    exact hdecode
  unfold loadImage
  rw [hleads.readText]
  dsimp only
  rw [hread]
  exact hvalid

theorem withEnding_hosted (ending : String) (he : '/' ∉ ending.toList) (hlen : 2 ≤ ending.length) :
    PathName.withEnding "p.json" ending = "p." ++ ending := by
  have hsibling : PathName.withEnding ("" ++ ("p" ++ ".json")) ending = _ :=
    PathName.withEnding_image (.inl rfl) (by decide) (by decide) he hlen
  refine hsibling.trans ?_
  simp [PathName.stemOfImage]

theorem outputPath_hosted : outputPath "p.json" = "p.out" := withEnding_hosted "out" (by decide) (by decide)

theorem inputPath_hosted : inputPath "p.json" = "p.in" := withEnding_hosted "in" (by decide) (by decide)

/-- A program that shows the line that it reads. -/
def echo : Image := bareImage [.libCall 3 0, .libCall 0 1, .finish]

/-- A host on which it is to be recorded. -/
def echoHost : Host :=
  hostWith (bareText "[[1,1],\x7b\"LibCall\":[3,0]\x7d],[[1,1],\x7b\"LibCall\":[0,1]\x7d],[[1,1],\"End\"]") []
    "a\rb\r\n"

def echoRecording : Finish := capture echoHost "p.json" echo { maxInstructions := 9 } (some 1)

theorem parse_echo :
    Json.parse? (bareText
      "[[1,1],\x7b\"LibCall\":[3,0]\x7d],[[1,1],\x7b\"LibCall\":[0,1]\x7d],[[1,1],\"End\"]") =
    some (bareJson [.obj [("LibCall", .arr [.int 3, .int 0])], .obj [("LibCall", .arr [.int 0, .int 1])],
      .str "End"]) := by cbv

theorem loadImage_echoHost : loadImage echoHost.disk "p.json" = .ok echo :=
  loadImage_hostWith parse_echo rfl (by cbv)

/-- A line with carriage returns inside and at its end is recorded and passes. -/
theorem capture_replays_echo :
    test echoHost "p.json" { maxInstructions := 9 } (some 1) = .ok echoRecording ∧ echoRecording.status = some 0 ∧
    echoRecording.output = "Capturing...\nstring> a\rb\nSAVED new test output\n" ∧
    test { echoHost with disk := echoRecording.disk, input := "" } "p.json" { maxInstructions := 9 } (some 1) =
      .ok ⟨some 0, "PASSED\n", "", echoRecording.disk⟩ := by
  have hload := loadImage_echoHost
  have hnew : loadOptionalText echoHost.disk (outputPath "p.json") = .ok none := by
    rw [outputPath_hosted]
    cbv
  have hread : linesRead echoHost echo { maxInstructions := 9 } (some 1) = ["a\rb"] := by cbv
  have hfiles : echo.UsesNoFiles := by
    unfold Image.UsesNoFiles
    decide
  have htest : test echoHost "p.json" { maxInstructions := 9 } (some 1) = .ok echoRecording := test_new hload hnew
  have hend : (echoRecording.status, echoRecording.output) =
      (some 0, "Capturing...\nstring> a\rb\nSAVED new test output\n") := by cbv
  obtain ⟨hok, houtput⟩ := Prod.mk.inj hend
  refine ⟨htest, hok, houtput, ?_⟩
  have hname : "p.json" = "p" ++ ".json" := by decide
  rw [hname] at hload hnew htest ⊢
  refine capture_replays hload hfiles hnew (fun hnone => ?_) htest hok rfl
  rw [hread] at hnone
  cases hnone

/-- An input of before that is no text is still there after a program that reads nothing was recorded, and no check
gets past it. -/
theorem capture_unreadable {host host' : Host} {name : String} {image : Image} {limits : Limits} {seed : Option Nat}
    {fin : Finish} {failure : Failure} (hload : loadImage host.disk (name ++ ".json") = .ok image)
    (hfiles : image.UsesNoFiles) (hnew : loadOptionalText host.disk (outputPath (name ++ ".json")) = .ok none)
    (hread : linesRead host image limits seed = [])
    (hold : loadOptionalText host.disk (inputPath (name ++ ".json")) = .error failure)
    (htest : test host (name ++ ".json") limits seed = .ok fin) (hok : fin.status = some 0) (hdisk : host'.disk = fin.disk) :
    test host' (name ++ ".json") limits seed = .error failure := by
  obtain ⟨w, hlines, -, -, himage, hout, hin⟩ := exists_recording hload hfiles hnew htest hok
  have hnone : w.console.received = [] := List.reverse_eq_nil_iff.1 (hlines.symm.trans hread)
  rw [if_pos hnone, hold] at hin
  rw [← hdisk] at himage hout hin
  simp only [test, himage, hout, hin, bind, Except.bind]

/-- A program that does nothing. -/
def silent : Image := bareImage [.finish]

/-- A host on which it is to be recorded, with an input of before that is no text. -/
def staleHost : Host := hostWith (bareText "[[1,1],\"End\"]") [(["p.in"], .file [0xFF])] ""

def staleRecording : Finish := capture staleHost "p.json" silent { maxInstructions := 9 } (some 1)

theorem loadImage_staleHost : loadImage staleHost.disk "p.json" = .ok silent :=
  loadImage_hostWith (show _ = some (bareJson [.str "End"]) by cbv) rfl (by cbv)

/-- **A recording that ended well need not pass**: the input of before is read, and it is no text. -/
theorem capture_stale :
    loadImage staleHost.disk "p.json" = .ok silent ∧ silent.UsesNoFiles ∧
    loadOptionalText staleHost.disk (outputPath "p.json") = .ok none ∧
    test staleHost "p.json" { maxInstructions := 9 } (some 1) = .ok staleRecording ∧ staleRecording.status = some 0 ∧
    test { staleHost with disk := staleRecording.disk } "p.json" { maxInstructions := 9 } (some 1) =
      .error { context := "Failed to read p.in", causes := ["stream did not contain valid UTF-8"] } := by
  have hload := loadImage_staleHost
  have hnew : loadOptionalText staleHost.disk (outputPath "p.json") = .ok none := by
    rw [outputPath_hosted]
    cbv
  have hread : linesRead staleHost silent { maxInstructions := 9 } (some 1) = [] := by cbv
  have hold : loadOptionalText staleHost.disk (inputPath "p.json") =
      .error { context := "Failed to read p.in", causes := ["stream did not contain valid UTF-8"] } := by
    rw [inputPath_hosted]
    cbv
  have hfiles : silent.UsesNoFiles := by
    unfold Image.UsesNoFiles
    decide
  have htest : test staleHost "p.json" { maxInstructions := 9 } (some 1) = .ok staleRecording := test_new hload hnew
  have hok : staleRecording.status = some 0 := by cbv
  refine ⟨hload, hfiles, hnew, htest, hok, ?_⟩
  have hname : "p.json" = "p" ++ ".json" := by decide
  rw [hname] at hload hnew hold htest ⊢
  exact capture_unreadable hload hfiles hnew hread hold htest hok rfl

end Cli

end PseudoVm
