import Mathlib
import PseudoVm.Proofs.Library.FileText
import PseudoVm.Proofs.World.DiskWrites
/-!
# Library.FileRoundTrip: what was written to a file is read from it

Values are written in any number of calls, over any number of sessions that each open the file and close it; then
the file is opened for input (`Story`).  `Phase.Holds` says what stands on the disk and in the open file meanwhile:
while it is written to, the file with what is held back is the lines of the values so far; while it is read, the
bytes read ahead with the rest of the file are the lines of the values not yet taken.  Every call keeps this, and
what the calls answer is read off it (`file_round_trip`).
-/
namespace PseudoVm

namespace Library

/-! ## Lines -/

/-- The lines of values in a file. -/
def Datum.fileBytes (values : List Datum) : Bytes := values.flatMap fun d => bytesOf d.text ++ [0x0A]

theorem Datum.fileBytes_append (values more : List Datum) :
    fileBytes (values ++ more) = fileBytes values ++ fileBytes more := by
  rw [fileBytes, List.flatMap_append]
  rfl

theorem Datum.fileBytes_cons (d : Datum) (values : List Datum) :
    fileBytes (d :: values) = bytesOf d.text ++ 0x0A :: fileBytes values := by
  rw [fileBytes, List.flatMap_cons, List.append_assoc]
  rfl

theorem fileTexts_values (values : List Datum) : fileTexts (values.map Datum.value) = .ok (Datum.fileBytes values) := by
  induction values with
  | nil => rfl
  | cons d values ih =>
    rw [List.map_cons, fileTexts, Datum.fileText_value, ih, Datum.fileBytes_cons]
    rfl

/-! ## Reading in blocks -/

section Blocks

variable {disk : Disk} {path : Path} {content : Bytes}

/-- Reading a block ahead changes nothing about what is left to read; nothing is ahead then only if nothing is left. -/
theorem fill_file (h : disk.node? path = some (.file content)) (offset : Nat) (ahead : Bytes) :
    ∃ offset' ahead', fill disk path offset ahead = .ok (offset', ahead') ∧
      ahead' ++ content.drop offset' = ahead ++ content.drop offset ∧
      (ahead' = [] → ahead ++ content.drop offset = []) := by
  cases ahead with
  | cons b ahead =>
    refine ⟨offset, b :: ahead, ?_, rfl, ?_⟩
    · simp [fill]
    · intro hnil; cases hnil
  | nil =>
    obtain ⟨left, hleft⟩ : ∃ left, content.drop offset = left := ⟨_, rfl⟩
    have hrest : content.drop (offset + (left.take World.blockSize).length) = left.drop World.blockSize := by
      rw [← List.drop_drop, hleft, List.length_take]
      by_cases hsize : World.blockSize ≤ left.length
      · rw [Nat.min_eq_left hsize]
      · rw [Nat.min_eq_right (by omega), List.drop_length, List.drop_of_length_le (by omega)]
    refine ⟨offset + (left.take World.blockSize).length, left.take World.blockSize, ?_, ?_, ?_⟩
    · simp [fill, h, hleft]
    · rw [hrest, List.take_append_drop, hleft, List.nil_append]
    · intro hnil
      have hzero : left = [] := by
        cases left with
        | nil => rfl
        | cons b left => rw [show World.blockSize = 8191 + 1 from rfl, List.take_succ_cons] at hnil; cases hnil
      rw [hleft, hzero, List.nil_append]

theorem ne_feed {line : Bytes} (h : (0x0A : UInt8) ∉ line) : ∀ b ∈ line, (b != 0x0A) = true := by
  intro b hb
  simp only [bne_iff_ne, ne_eq]
  rintro rfl
  exact h hb

theorem takeLine_piece (fuel : Nat) {offset offset₁ : Nat} {ahead piece : Bytes}
    (hfill : fill disk path offset ahead = .ok (offset₁, piece)) (hfeed : (0x0A : UInt8) ∉ piece) (hne : piece ≠ []) :
    takeLine disk path (fuel + 1) offset ahead =
      (takeLine disk path fuel offset₁ []).map fun r => (piece ++ r.1, r.2) := by
  have htake : piece.takeWhile (· != 0x0A) = piece := by
    simpa using @List.takeWhile_append_of_pos _ _ piece [] (ne_feed hfeed)
  have hdrop : piece.dropWhile (· != 0x0A) = [] := by
    simpa using @List.dropWhile_append_of_pos _ _ piece [] (ne_feed hfeed)
  have hempty : piece.isEmpty = false := by simpa using hne
  rw [takeLine, hfill]
  simp only [bind, Except.bind, htake, hdrop, hempty]
  cases takeLine disk path fuel offset₁ [] <;> rfl

theorem takeLine_last (fuel : Nat) {offset offset₁ : Nat} {ahead line after : Bytes}
    (hfill : fill disk path offset ahead = .ok (offset₁, line ++ 0x0A :: after)) (hfeed : (0x0A : UInt8) ∉ line) :
    takeLine disk path (fuel + 1) offset ahead = .ok (line ++ [0x0A], offset₁, after) := by
  have htake : (line ++ 0x0A :: after).takeWhile (· != 0x0A) = line := by
    rw [List.takeWhile_append_of_pos (ne_feed hfeed), List.takeWhile_cons_of_neg (by simp), List.append_nil]
  have hdrop : (line ++ 0x0A :: after).dropWhile (· != 0x0A) = 0x0A :: after := by
    rw [List.dropWhile_append_of_pos (ne_feed hfeed), List.dropWhile_cons_of_neg (by simp)]
  rw [takeLine, hfill]
  simp only [bind, Except.bind, htake, hdrop]
  rfl

/-- **A line is taken whole, over any number of blocks,** and what follows it is left. -/
theorem takeLine_line (h : disk.node? path = some (.file content)) {fuel : Nat} :
    ∀ {offset : Nat} {ahead line rest : Bytes}, (0x0A : UInt8) ∉ line →
      ahead ++ content.drop offset = line ++ 0x0A :: rest → line.length < fuel →
      ∃ offset' ahead', takeLine disk path fuel offset ahead = .ok (line ++ [0x0A], offset', ahead') ∧
        ahead' ++ content.drop offset' = rest := by
  induction fuel with
  | zero => intro offset ahead line rest _ _ hlt; omega
  | succ fuel ih =>
    intro offset ahead line rest hfeed hleft hlt
    obtain ⟨offset₁, ahead₁, hfill, hsame, hnone⟩ := fill_file h offset ahead
    rw [hleft] at hsame hnone
    have hne : ahead₁ ≠ [] := fun hnil => by simpa using hnone hnil
    -- The block is a piece of the line, or it reaches past the line feed.
    have hcases : (∃ more, line = ahead₁ ++ more ∧ content.drop offset₁ = more ++ 0x0A :: rest) ∨
        ∃ after, ahead₁ = line ++ 0x0A :: after ∧ rest = after ++ content.drop offset₁ := by
      rcases List.append_eq_append_iff.1 hsame with hpiece | ⟨tail, hahead, htail⟩
      · exact .inl hpiece
      · cases tail with
        | nil => exact .inl ⟨[], by simpa using hahead.symm, by simpa using htail.symm⟩
        | cons b after =>
          rw [List.cons_append, List.cons.injEq] at htail
          exact .inr ⟨after, by rw [htail.1]; exact hahead, htail.2⟩
    rcases hcases with ⟨more, hline, hdrop⟩ | ⟨after, hahead, hrest⟩
    · have hpiece : (0x0A : UInt8) ∉ ahead₁ := fun hmem => hfeed (by rw [hline]; simp [hmem])
      have hmore : (0x0A : UInt8) ∉ more := fun hmem => hfeed (by rw [hline]; simp [hmem])
      have hlen : more.length < fuel := by
        have hpos := List.length_pos_iff.2 hne
        rw [hline, List.length_append] at hlt
        omega
      have hleft₁ : [] ++ content.drop offset₁ = more ++ 0x0A :: rest := hdrop
      obtain ⟨offset', ahead', htake, hleft'⟩ := ih hmore hleft₁ hlen
      refine ⟨offset', ahead', ?_, hleft'⟩
      rw [takeLine_piece fuel hfill hpiece hne, htake, hline, List.append_assoc]
      rfl
    · refine ⟨offset₁, after, ?_, hrest.symm⟩
      rw [hahead] at hfill
      exact takeLine_last fuel hfill hfeed

theorem takeLine_end (h : disk.node? path = some (.file content)) (fuel : Nat) {offset : Nat} {ahead : Bytes}
    (hleft : ahead ++ content.drop offset = []) :
    ∃ offset', takeLine disk path (fuel + 1) offset ahead = .ok ([], offset', []) ∧ content.drop offset' = [] := by
  obtain ⟨offset', ahead', hfill, hsame, -⟩ := fill_file h offset ahead
  rw [hleft, List.append_eq_nil_iff] at hsame
  obtain ⟨rfl, hdrop⟩ := hsame
  refine ⟨offset', ?_, hdrop⟩
  rw [takeLine, hfill]
  rfl

end Blocks

/-! ## Files -/

section Files

variable {w : World} {id : FileId} {f : OpenFile}

theorem file?_setFile (h : w.file? id = some f) (state : FileState) :
    (w.setFile id state).file? id = some { f with state := state } := by
  simp only [World.file?] at h
  simp [World.file?, World.setFile, Array.getElem?_modify, h]

theorem stateOf_file (h : w.file? id = some f) : stateOf (.file id) w = .ok (id, f) := by
  simp only [stateOf, Value.asFile, bind, Except.bind, h]
  rfl

end Files

/-! ## The phases of a file -/

/-- Where a program is with a file: it has the file closed, writes to it, or reads from it and has taken some values. -/
inductive Phase
  | away
  | writing (id : FileId)
  | reading (id : FileId) (taken : List Datum)

/-- Other things happen that do not touch the file at a path: directories stay, the file keeps its content, and who
has it open keeps it as it is. -/
structure Apart (path : Path) (w w' : World) : Prop where
  dirs : w.disk.KeepsDirs w'.disk
  node : w'.disk.node? path = w.disk.node? path
  files : ∀ id f, w.file? id = some f → f.path = path → w'.file? id = some f

/-- **What has been done with a file:** the phase, the values written and the world.  It was opened for output; values
were written in any number of calls and sessions, the later ones opened for appending, each closed; then it was opened
for input, and values were taken one by one, each by the function of its type, and `eof` asked at any time.  Whatever
else happened in between was apart from the file. -/
inductive Story (name : Bytes) (path : Path) (start : World) : Phase → List Datum → World → Prop
  | opened {id : FileId} {w : World} (hcall : call .openOutputFile [.str name] start = .ok (some (.file id)) w)
      (hpath : (w.file? id).map (·.path) = some path) : Story name path start (.writing id) [] w
  | wrote {id : FileId} {values : List Datum} {w w' : World} {r : Option Value} (batch : List Datum)
      (h : Story name path start (.writing id) values w)
      (hcall : call .writeFile (.file id :: batch.map Datum.value) w = .ok r w') :
      Story name path start (.writing id) (values ++ batch) w'
  | closed {id : FileId} {values : List Datum} {w w' : World} {r : Option Value}
      (h : Story name path start (.writing id) values w) (hcall : call .closeOutputFile [.file id] w = .ok r w') :
      Story name path start .away values w'
  | appending {id : FileId} {values : List Datum} {w w' : World} (h : Story name path start .away values w)
      (hcall : call .openAppendFile [.str name] w = .ok (some (.file id)) w') :
      Story name path start (.writing id) values w'
  | reading {id : FileId} {values : List Datum} {w w' : World} (h : Story name path start .away values w)
      (hcall : call .openInputFile [.str name] w = .ok (some (.file id)) w') :
      Story name path start (.reading id []) values w'
  | asked {id : FileId} {taken values : List Datum} {w w' : World} {r : Option Value}
      (h : Story name path start (.reading id taken) values w) (hcall : call .eof [.file id] w = .ok r w') :
      Story name path start (.reading id taken) values w'
  | took {id : FileId} {taken rest : List Datum} {d : Datum} {w w' : World} {r : Option Value}
      (h : Story name path start (.reading id taken) (taken ++ d :: rest) w)
      (hcall : call d.reader [.file id] w = .ok r w') :
      Story name path start (.reading id (taken ++ [d])) (taken ++ d :: rest) w'
  | other {phase : Phase} {values : List Datum} {w w' : World} (h : Story name path start phase values w)
      (happart : Apart path w w') : Story name path start phase values w'

/-- The text under which a name is looked up. -/
def lookedUp (name : Bytes) : String := shownPath (Utf8.textLossy name)

/-- What a file holds in each phase. -/
def Phase.Holds (name : Bytes) (path : Path) : Phase → List Datum → World → Prop
  | .away, values, w => w.disk.Leads (lookedUp name) path (Datum.fileBytes values)
  | .writing id, values, w => ∃ shown appends old pending,
      w.disk.Leads (lookedUp name) path old ∧ w.file? id = some ⟨shown, path, .output appends pending⟩ ∧
      old ++ pending = Datum.fileBytes values ∧ (appends = false → old = [])
  | .reading id taken, values, w => ∃ shown offset ahead rest,
      w.disk.Leads (lookedUp name) path (Datum.fileBytes values) ∧
      w.file? id = some ⟨shown, path, .input offset ahead⟩ ∧
      values = taken ++ rest ∧ ahead ++ (Datum.fileBytes values).drop offset = Datum.fileBytes rest

section Calls

variable {name : Bytes} {path : Path} {id : FileId} {values taken rest : List Datum} {w w' : World}

theorem openOutput_eq (function : String) (appends : Bool) (name : Bytes) (w : World) :
    openOutput function appends [.str name] w =
      match w.disk.openOutput (lookedUp name) with
      | .error e => .error (.io e.message)
      | .ok (path, disk) =>
        let disk := if appends then disk else disk.put path (.file [])
        .ok (.file ⟨w.files.size⟩,
          { w with disk := disk, files := w.files.push ⟨lookedUp name, path, .output appends []⟩ }) := by
  simp only [openOutput, one, textOf, Value.asStr, bind, Except.bind, pure, Except.pure, World.addFile]
  rfl

theorem openInput_eq (name : Bytes) (w : World) :
    openInput [.str name] w =
      match w.disk.openInput (lookedUp name) with
      | .error e => .error (.io e.message)
      | .ok path =>
        .ok (.file ⟨w.files.size⟩, { w with files := w.files.push ⟨lookedUp name, path, .input 0 []⟩ }) := by
  simp only [openInput, one, textOf, Value.asStr, bind, Except.bind, pure, Except.pure, World.addFile]
  rfl

theorem holds_of_openOutputFile (hcall : call .openOutputFile [.str name] w = .ok (some (.file id)) w')
    (hpath : (w'.file? id).map (·.path) = some path) : (Phase.writing id).Holds name path [] w' := by
  simp only [call, update, openOutput_eq] at hcall
  cases hopen : w.disk.openOutput (lookedUp name) with
  | error e => rw [hopen] at hcall; cases hcall
  | ok found =>
    obtain ⟨path', disk⟩ := found
    rw [hopen] at hcall
    cases hcall
    simp only [World.file?, Array.getElem?_push_size, Option.map_some, Option.some.injEq] at hpath
    subst hpath
    have hleads := (Disk.leads_of_openOutput hopen).1.put []
    exact ⟨lookedUp name, false, [], [], hleads, by simp [World.file?], rfl, fun _ => rfl⟩

theorem Holds.append (h : Phase.away.Holds name path values w) :
    ∃ id w', call .openAppendFile [.str name] w = .ok (some (.file id)) w' ∧
      (Phase.writing id).Holds name path values w' := by
  have hleads : w.disk.Leads (lookedUp name) path (Datum.fileBytes values) := h
  have hcall : openOutput "OpenAppendFile" true [.str name] w = .ok (.file ⟨w.files.size⟩,
      { w with files := w.files.push ⟨lookedUp name, path, .output true []⟩ }) := by
    rw [openOutput_eq, hleads.openOutput]
    rfl
  refine ⟨⟨w.files.size⟩, { w with files := w.files.push ⟨lookedUp name, path, .output true []⟩ }, ?_,
    lookedUp name, true, Datum.fileBytes values, [], hleads, by simp [World.file?], List.append_nil _, ?_⟩
  · rw [call, update, LibraryFunction.name, hcall]
  · intro hfalse
    cases hfalse

theorem Holds.input (h : Phase.away.Holds name path values w) :
    ∃ id w', call .openInputFile [.str name] w = .ok (some (.file id)) w' ∧
      (Phase.reading id []).Holds name path values w' := by
  have hleads : w.disk.Leads (lookedUp name) path (Datum.fileBytes values) := h
  refine ⟨⟨w.files.size⟩, { w with files := w.files.push ⟨lookedUp name, path, .input 0 []⟩ }, ?_,
    lookedUp name, 0, [], values, hleads, by simp [World.file?], rfl, rfl⟩
  rw [call, update, openInput_eq, hleads.openInput]

theorem Holds.write (h : (Phase.writing id).Holds name path values w) (batch : List Datum) :
    ∃ w', call .writeFile (.file id :: batch.map Datum.value) w = .ok none w' ∧
      (Phase.writing id).Holds name path (values ++ batch) w' := by
  obtain ⟨shown, appends, old, pending, hleads, hfile, htext, hfresh⟩ := h
  have hcall : writeFile (.file id :: batch.map Datum.value) w =
      .ok (w.setFile id (.output appends (pending ++ Datum.fileBytes batch))) := by
    simp only [writeFile, fileTexts_values, stateOf_file hfile, bind, Except.bind, pure, Except.pure]
  refine ⟨w.setFile id (.output appends (pending ++ Datum.fileBytes batch)), ?_,
    shown, appends, old, pending ++ Datum.fileBytes batch, hleads, file?_setFile hfile _, ?_, hfresh⟩
  · rw [call, effect, hcall]
  · rw [← List.append_assoc, htext, Datum.fileBytes_append]

theorem Holds.close (h : (Phase.writing id).Holds name path values w) :
    ∃ w', call .closeOutputFile [.file id] w = .ok none w' ∧ Phase.away.Holds name path values w' := by
  obtain ⟨shown, appends, old, pending, hleads, hfile, htext, hfresh⟩ := h
  have hcall : Library.close [.file id] w = .ok ((w.writeOut id).setFile id .closed) := by
    simp only [Library.close, one, stateOf_file hfile, bind, Except.bind, pure, Except.pure]
  refine ⟨(w.writeOut id).setFile id .closed, by rw [call, effect, hcall], ?_⟩
  show (w.writeOut id).disk.Leads (lookedUp name) path (Datum.fileBytes values)
  rw [World.writeOut, hfile]
  by_cases hempty : pending = []
  · rw [hempty, List.append_nil] at htext
    simpa only [hempty, List.isEmpty_nil, if_true, htext] using hleads
  · have hsome : pending.isEmpty = false := by simpa using hempty
    cases appends with
    | true =>
      have happend : w.disk.append path pending = w.disk.put path (.file (Datum.fileBytes values)) := by
        rw [Disk.append, hleads.content_eq, htext]
      simpa only [hsome, if_true, Bool.false_eq_true, if_false, happend] using hleads.put _
    | false =>
      have hold : old = [] := hfresh rfl
      have hwrite : w.disk.writeAt path 0 pending = w.disk.put path (.file (Datum.fileBytes values)) := by
        rw [Disk.writeAt, hleads.content_eq, ← htext, hold]
        simp
      simpa only [hsome, Bool.false_eq_true, if_false, hwrite] using hleads.put _

theorem Holds.eof (h : (Phase.reading id taken).Holds name path (taken ++ rest) w) :
    ∃ w', call .eof [.file id] w = .ok (some (.bool rest.isEmpty)) w' ∧
      (Phase.reading id taken).Holds name path (taken ++ rest) w' := by
  obtain ⟨shown, offset, ahead, rest', hleads, hfile, hvalues, hleft⟩ := h
  obtain rfl : rest = rest' := List.append_cancel_left hvalues
  obtain ⟨offset', ahead', hfill, hsame, hnone⟩ := fill_file hleads.node offset ahead
  rw [hleft] at hsame hnone
  have hempty : ahead'.isEmpty = rest.isEmpty := by
    cases rest with
    | nil =>
      rw [List.append_eq_nil_iff.1 hsame |>.1]
      rfl
    | cons d rest =>
      have hne : ahead' ≠ [] := fun hnil => by simpa [Datum.fileBytes_cons] using hnone hnil
      simpa using hne
  have hcall : Library.eof [.file id] w = .ok (.bool rest.isEmpty, w.setFile id (.input offset' ahead')) := by
    simp only [Library.eof, one, stateOf_file hfile, inputState, hfill, hempty, bind, Except.bind, pure, Except.pure]
  refine ⟨w.setFile id (.input offset' ahead'), ?_, shown, offset', ahead', rest, hleads, file?_setFile hfile _, rfl,
    hsame⟩
  rw [call, update, hcall]

/-- **The next value is read back by the function of its type.** -/
theorem Holds.read {d : Datum} (h : (Phase.reading id taken).Holds name path (taken ++ d :: rest) w) :
    ∃ w', call d.reader [.file id] w = .ok (some d.value) w' ∧
      (Phase.reading id (taken ++ [d])).Holds name path (taken ++ d :: rest) w' := by
  obtain ⟨shown, offset, ahead, rest', hleads, hfile, hvalues, hleft⟩ := h
  obtain rfl : d :: rest = rest' := List.append_cancel_left hvalues
  rw [Datum.fileBytes_cons] at hleft
  have hprint := d.text_printable
  have hfeed := Printable.feed_not_mem hprint
  have hfuel : (bytesOf d.text).length < (w.disk.content path).length + 2 := by
    rw [hleads.content_eq, Datum.fileBytes_append, Datum.fileBytes_cons]
    simp only [List.length_append, List.length_cons]
    omega
  obtain ⟨offset', ahead', htake, hleft'⟩ := takeLine_line hleads.node hfeed hleft hfuel
  obtain ⟨htext, htrim⟩ := Printable.line hprint
  have hline : nextLine d.reader.name (.file id) w = (.ok d.text, w.setFile id (.input offset' ahead')) := by
    have hsome : (bytesOf d.text ++ [0x0A]).isEmpty = false := by simp
    simp only [nextLine, stateOf_file hfile, inputState, htake, htext, htrim, hsome, bind, Except.bind, pure,
      Except.pure, Bool.false_eq_true, if_false]
  have hcall : readValue d.reader.name d.understand [.file id] w =
      (.ok d.value, w.setFile id (.input offset' ahead')) := by
    simp only [readValue, one, hline, d.understood]
  refine ⟨w.setFile id (.input offset' ahead'), ?_, shown, offset', ahead', rest, hleads, file?_setFile hfile _, ?_,
    hleft'⟩
  · rw [d.call_reader, attempt, hcall]
  · rw [List.append_assoc, List.singleton_append]

/-- The functions that read a value from a file. -/
def readers : List LibraryFunction := [.readInteger, .readReal, .readString, .readCharacter, .readBoolean]

theorem Holds.read_end (h : (Phase.reading id values).Holds name path values w) :
    ∀ f ∈ readers, ∃ w', call f [.file id] w = .error (.fault (.io (f.name ++ ": unexpected end of file"))) w' := by
  obtain ⟨shown, offset, ahead, rest, hleads, hfile, hvalues, hleft⟩ := h
  obtain rfl : rest = [] := by simpa using hvalues
  obtain ⟨offset', htake, -⟩ := takeLine_end hleads.node ((w.disk.content path).length + 1) hleft
  have hline : ∀ function, nextLine function (.file id) w =
      (.error (.io (function ++ ": unexpected end of file")), w.setFile id (.input offset' [])) := by
    intro function
    simp only [nextLine, stateOf_file hfile, inputState, htake, bind, Except.bind, pure, Except.pure, List.isEmpty_nil,
      if_true]
  have hread : ∀ function understand, readValue function understand [.file id] w =
      (.error (.io (function ++ ": unexpected end of file")), w.setFile id (.input offset' [])) := by
    intro function understand
    simp only [readValue, one, hline]
  intro f hf
  simp only [readers, List.mem_cons, List.not_mem_nil, or_false] at hf
  rcases hf with rfl | rfl | rfl | rfl | rfl <;> exact ⟨_, by rw [call, attempt, hread]⟩

theorem Holds.apart {phase : Phase} (h : phase.Holds name path values w) (happart : Apart path w w') :
    phase.Holds name path values w' := by
  have hkeep : ∀ {content}, w.disk.Leads (lookedUp name) path content → w'.disk.Leads (lookedUp name) path content :=
    fun hleads => hleads.of_keepsDirs happart.dirs (happart.node.trans hleads.node)
  cases phase with
  | away => exact hkeep h
  | writing id =>
    obtain ⟨shown, appends, old, pending, hleads, hfile, hrest⟩ := h
    exact ⟨shown, appends, old, pending, hkeep hleads, happart.files id _ hfile rfl, hrest⟩
  | reading id taken =>
    obtain ⟨shown, offset, ahead, rest, hleads, hfile, hrest⟩ := h
    exact ⟨shown, offset, ahead, rest, hkeep hleads, happart.files id _ hfile rfl, hrest⟩

end Calls

/-- The run lemma: every call keeps what the phase says. -/
theorem Story.holds {name : Bytes} {path : Path} {start : World} {phase : Phase} {values : List Datum} {w : World}
    (h : Story name path start phase values w) : phase.Holds name path values w := by
  -- A call has one end in a world, so the end of the story's call is the one of which the step lemma speaks.
  induction h with
  | opened hcall hpath => exact holds_of_openOutputFile hcall hpath
  | wrote batch _ hcall ih =>
    obtain ⟨w', hcall', hw⟩ := Holds.write ih batch
    rw [hcall'] at hcall
    cases hcall
    exact hw
  | closed _ hcall ih =>
    obtain ⟨w', hcall', hw⟩ := Holds.close ih
    rw [hcall'] at hcall
    cases hcall
    exact hw
  | appending _ hcall ih =>
    obtain ⟨id, w', hcall', hw⟩ := Holds.append ih
    rw [hcall'] at hcall
    cases hcall
    exact hw
  | reading _ hcall ih =>
    obtain ⟨id, w', hcall', hw⟩ := Holds.input ih
    rw [hcall'] at hcall
    cases hcall
    exact hw
  | asked _ hcall ih =>
    have hsplit := ih
    obtain ⟨-, -, -, rest, -, -, rfl, -⟩ := hsplit
    obtain ⟨w', hcall', hw⟩ := Holds.eof ih
    rw [hcall'] at hcall
    cases hcall
    exact hw
  | took _ hcall ih =>
    obtain ⟨w', hcall', hw⟩ := Holds.read ih
    rw [hcall'] at hcall
    cases hcall
    exact hw
  | other _ happart ih => exact Holds.apart ih happart

/-- **What was written to a file is read from it.**  Once the file could be opened for output, every further call of a
story succeeds: closed, it can be opened for appending and for input; open for output, values can be written and it can
be closed.  Open for input, what is left of the written values is left to read: `eof` answers whether that is nothing,
the function of the next value's type returns exactly that value, and after the last value every reading function fails
at the end of the file. -/
theorem file_round_trip {name : Bytes} {path : Path} {start : World} {phase : Phase} {values : List Datum} {w : World}
    (h : Story name path start phase values w) :
    match phase with
    | .away =>
      (∃ id w', call .openAppendFile [.str name] w = .ok (some (.file id)) w') ∧
        ∃ id w', call .openInputFile [.str name] w = .ok (some (.file id)) w'
    | .writing id =>
      (∀ batch : List Datum, ∃ w', call .writeFile (.file id :: batch.map Datum.value) w = .ok none w') ∧
        ∃ w', call .closeOutputFile [.file id] w = .ok none w'
    | .reading id taken =>
      ∃ rest, values = taken ++ rest ∧
        (∃ w', call .eof [.file id] w = .ok (some (.bool rest.isEmpty)) w') ∧
        match rest with
        | d :: _ => ∃ w', call d.reader [.file id] w = .ok (some d.value) w'
        | [] => ∀ f ∈ readers,
            ∃ w', call f [.file id] w = .error (.fault (.io (f.name ++ ": unexpected end of file"))) w' := by
  have hholds := h.holds
  cases phase with
  | away =>
    obtain ⟨id, w₁, happend, -⟩ := Holds.append hholds
    obtain ⟨id', w₂, hinput, -⟩ := Holds.input hholds
    exact ⟨⟨id, w₁, happend⟩, id', w₂, hinput⟩
  | writing id =>
    obtain ⟨w₁, hclose, -⟩ := Holds.close hholds
    refine ⟨fun batch => ?_, w₁, hclose⟩
    obtain ⟨w₂, hwrite, -⟩ := Holds.write hholds batch
    exact ⟨w₂, hwrite⟩
  | reading id taken =>
    have hsplit := hholds
    obtain ⟨-, -, -, rest, -, -, rfl, -⟩ := hsplit
    obtain ⟨w₁, heof, -⟩ := Holds.eof hholds
    refine ⟨rest, rfl, ⟨w₁, heof⟩, ?_⟩
    cases rest with
    | cons d rest =>
      obtain ⟨w₂, hread, -⟩ := Holds.read hholds
      exact ⟨w₂, hread⟩
    | nil =>
      rw [List.append_nil] at hholds
      exact Holds.read_end hholds

/-- A world with an empty disk. -/
def emptyWorld : World := { console := ⟨.script [], [], ""⟩, random := ⟨[], 0⟩ }

theorem openOutput_notes : (emptyWorld.disk.openOutput (lookedUp (bytesOf "notes"))) =
    .ok (["notes"], emptyWorld.disk.put ["notes"] (.file [])) := by cbv

/-- Two sessions on a new file, and then a look at what it begins with. -/
theorem file_round_trip_notes : ∃ id w,
    Story (bytesOf "notes") ["notes"] emptyWorld (.reading id []) [.int (-7), .str [0x0A, 0xFF], .char 0x27] w ∧
      (∃ w', call .eof [.file id] w = .ok (some (.bool false)) w') ∧
      ∃ w', call .readInteger [.file id] w = .ok (some (.int (-7))) w' := by
  obtain ⟨id₁, w₁, h₁⟩ : ∃ id w, Story (bytesOf "notes") ["notes"] emptyWorld (.writing id) [] w := by
    refine ⟨_, _, .opened (by rw [call, update, openOutput_eq, openOutput_notes]) ?_⟩
    rfl
  obtain ⟨w₂, hwrite⟩ := (file_round_trip h₁).1 [.int (-7), .str [0x0A, 0xFF]]
  have h₂ := Story.wrote _ h₁ hwrite
  obtain ⟨w₃, hclose⟩ := (file_round_trip h₂).2
  have h₃ := h₂.closed hclose
  obtain ⟨id₂, w₄, happend⟩ := (file_round_trip h₃).1
  have h₄ := h₃.appending happend
  obtain ⟨w₅, hmore⟩ := (file_round_trip h₄).1 [.char 0x27]
  have h₅ := Story.wrote _ h₄ hmore
  obtain ⟨w₆, hagain⟩ := (file_round_trip h₅).2
  have h₆ := h₅.closed hagain
  obtain ⟨id₃, w₇, hinput⟩ := (file_round_trip h₆).2
  have h₇ := h₆.reading hinput
  obtain ⟨rest, hrest, heof, hread⟩ := file_round_trip h₇
  obtain rfl : rest = [.int (-7), .str [0x0A, 0xFF], .char 0x27] := hrest.symm
  exact ⟨id₃, w₇, h₇, heof, hread⟩

end Library

end PseudoVm
