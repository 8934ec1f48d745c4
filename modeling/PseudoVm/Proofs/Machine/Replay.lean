import PseudoVm.Cli.Run
import PseudoVm.Proofs.Machine.Indoors
import PseudoVm.Proofs.Text.RecordedLines
/-!
# Machine.Replay: a run is repeated from the lines it read

A program that uses no files does nothing to its world but read lines and write text, change the heap and draw random
numbers.  `World.scripted` is a world as it would be if its lines came from a script and its disk were another.  Where a
run succeeds, it goes the same way in such a world step by step (`Machine.step_scripted`) to its end
(`Cli.execute_scripted`), as long as the script begins with the lines that the whole run reads.
-/
namespace PseudoVm

/-- A function on files. -/
def LibraryFunction.usesFiles : LibraryFunction → Bool
  | .openOutputFile | .openAppendFile | .openInputFile | .closeOutputFile | .closeInputFile | .writeFile | .readInteger
  | .readReal | .readString | .readCharacter | .readBoolean | .eof => true
  | _ => false

/-- A call of a library function on files. -/
def Op.usesFiles : Op → Bool
  | .libCall index _ => (LibraryFunction.ofIndex? index).any LibraryFunction.usesFiles
  | _ => false

/-- **No instruction calls a library function on files.** -/
def Image.UsesNoFiles (image : Image) : Prop := ∀ i ∈ image.code, i.op.usesFiles = false

/-! ## The console -/

namespace Console

/-- The console as it is when its lines are those of a script, of which it has handed out as many as it has. -/
def scripted (supply : List String) (c : Console) : Console :=
  { c with source := .script (supply.drop c.received.length) }

/-- Lines come from a stream, and those handed out were whole. -/
structure OnStream (c : Console) : Prop where
  source : ∃ cs, c.source = .stream cs
  whole : ∀ line ∈ c.received, Lines.Whole line.toList

/-- From one console to another, lines were handed out and text was written. -/
structure Continues (c c' : Console) : Prop where
  received : c.received <:+ c'.received
  stream : c.OnStream → c'.OnStream

variable {c c₁ c₂ : Console} {supply : List String}

theorem Continues.refl (c : Console) : c.Continues c := ⟨List.suffix_refl _, id⟩

theorem Continues.trans (h : c.Continues c₁) (h' : c₁.Continues c₂) : c.Continues c₂ :=
  ⟨h.received.trans h'.received, h'.stream ∘ h.stream⟩

theorem Continues.covers (h : c.Continues c₁) (hs : c₁.received.reverse <+: supply) :
    c.received.reverse <+: supply := (List.reverse_prefix.2 h.received).trans hs

theorem continues_write (c : Console) (text : String) : c.Continues (c.write text) :=
  ⟨List.suffix_refl _, fun h => ⟨h.source, h.whole⟩⟩

theorem write_scripted (c : Console) (text : String) :
    (c.scripted supply).write text = (c.write text).scripted supply := rfl

theorem readLine_ok {line : String} (h : c.readLine = (.ok line, c₁)) :
    ∃ source, c.source.next? = some (line, source) ∧
      c₁ = { c with source := source, received := line :: c.received } := by
  unfold readLine at h
  split at h
  · cases h
  · rename_i source hs
    cases h
    exact ⟨source, hs, rfl⟩

theorem continues_readLine {line : String} (h : c.readLine = (.ok line, c₁)) : c.Continues c₁ := by
  obtain ⟨source, hs, rfl⟩ := readLine_ok h
  refine ⟨List.suffix_cons line c.received, fun hc => ?_⟩
  obtain ⟨cs, hcs⟩ := hc.source
  rw [hcs] at hs
  obtain ⟨⟨taken, rest⟩, htake, hline⟩ := Option.map_eq_some_iff.1 hs
  cases hline
  refine ⟨⟨rest, rfl⟩, fun line hl => ?_⟩
  rcases List.mem_cons.1 hl with rfl | hl
  · rw [String.toList_ofList]
    exact Lines.whole_of_take? htake
  · exact hc.whole line hl

theorem readLine_scripted {line : String} (h : c.readLine = (.ok line, c₁)) (hs : c₁.received.reverse <+: supply) :
    (c.scripted supply).readLine = (.ok line, c₁.scripted supply) := by
  obtain ⟨source, -, rfl⟩ := readLine_ok h
  obtain ⟨rest, rfl⟩ := hs
  have hdrop : ((line :: c.received).reverse ++ rest).drop c.received.length = line :: rest := by
    rw [List.reverse_cons, List.append_assoc, ← List.length_reverse, List.drop_left]
    rfl
  have hnext : ((line :: c.received).reverse ++ rest).drop (c.received.length + 1) = rest := by
    rw [← List.tail_drop, hdrop, List.tail_cons]
  unfold readLine scripted
  rw [hdrop]
  simp only [Source.next?, List.length_cons, hnext]

end Console

/-! ## The world -/

namespace World

/-- The world as it is when its lines are those of a script and its disk is another. -/
def scripted (supply : List String) (disk : Disk) (w : World) : World :=
  { w with console := w.console.scripted supply, disk := disk }

/-- **From one world to another no file was touched.** -/
structure Converses (w w' : World) : Prop where
  disk : w'.disk = w.disk
  files : w'.files = w.files
  console : w.console.Continues w'.console

variable {w w₁ w₂ : World}

theorem Converses.refl (w : World) : w.Converses w := ⟨rfl, rfl, .refl _⟩

theorem Converses.trans (h : w.Converses w₁) (h' : w₁.Converses w₂) : w.Converses w₂ :=
  ⟨h'.disk.trans h.disk, h'.files.trans h.files, h.console.trans h'.console⟩

end World

/-! ## Library calls -/

namespace Library

variable {α : Type}

/-- **It touches no file, and where it succeeds it is repeated from the lines it reads.** -/
def Repeats (a : Act α) : Prop := ∀ w v w₁, a w = .ok v w₁ → w.Converses w₁ ∧
  ∀ supply disk, w₁.console.received.reverse <+: supply →
    a (w.scripted supply disk) = .ok v (w₁.scripted supply disk)

theorem repeats_computed (r : Except Fault Value) : Repeats (computed r) := by
  intro w v w₁ h
  cases r <;> cases h
  exact ⟨.refl w, fun _ _ _ => rfl⟩

theorem repeats_display (args : List Value) : Repeats (display args) := by
  intro w v w₁ h
  unfold display at h ⊢
  cases htext : displayAll w.heap args with
  | none => rw [htext] at h; cases h
  | some text =>
    rw [htext] at h
    cases h
    refine ⟨⟨rfl, rfl, w.console.continues_write text⟩, fun supply disk _ => ?_⟩
    have hheap : (w.scripted supply disk).heap = w.heap := rfl
    rw [hheap, htext]
    rfl

/-- The number that is drawn from the generator, and what is left of it. -/
def draw (args : List Value) (r : Random) : Except Fault (Value × Random) := do
  let (low, high) ← two "random" args
  let low ← low.asInt
  let high ← high.asInt
  if high < low then
    throw (rejected "random" ("empty range [" ++ Numeral.intText low ++ ", " ++ Numeral.intText high ++ "]"))
  let (n, r) := r.between low high
  return (.int n, r)

theorem random_eq (args : List Value) :
    random args = update fun w => (draw args w.random).map fun drawn => (drawn.1, { w with random := drawn.2 }) := by
  funext w
  unfold random update draw
  cases two "random" args with
  | error e => rfl
  | ok ends =>
    obtain ⟨low, high⟩ := ends
    cases hlow : low.asInt with
    | error e => simp only [bind, Except.bind, hlow, Except.map]
    | ok low =>
      cases hhigh : high.asInt with
      | error e => simp only [bind, Except.bind, hlow, hhigh, Except.map]
      | ok high =>
        by_cases hlt : high < low
        · simp only [bind, Except.bind, hlow, hhigh, if_pos hlt]
          rfl
        · simp only [bind, Except.bind, hlow, hhigh, if_neg hlt]
          rfl

theorem repeats_random (args : List Value) : Repeats (random args) := by
  rw [random_eq]
  intro w v w₁ h
  dsimp only [update] at h ⊢
  cases hd : draw args w.random with
  | error e => rw [hd] at h; cases h
  | ok drawn =>
    rw [hd] at h
    cases h
    refine ⟨⟨rfl, rfl, .refl _⟩, fun supply disk _ => ?_⟩
    have hrandom : (w.scripted supply disk).random = w.random := rfl
    rw [hrandom, hd]
    rfl

/-- Questions are answered as before; a script of so many lines is asked often enough. -/
theorem askFor_scripted (d : Dialogue α) : ∀ {tries : Nat} {c c₁ : Console} {v : α}, d.askFor tries c = (.ok v, c₁) →
    c.Continues c₁ ∧ ∀ supply tries', c₁.received.reverse <+: supply →
      supply.length - c.received.length ≤ tries' → d.askFor tries' (c.scripted supply) = (.ok v, c₁.scripted supply)
  | 0, _, _, _, h => by cases h
  | tries + 1, c, c₁, v, h => by
    rw [Dialogue.askFor] at h
    cases hread : (c.write d.prompt).readLine with
    | mk r c' =>
      rw [hread] at h
      cases r with
      | error e => cases h
      | ok line =>
        have hfirst : c.Continues c' := (c.continues_write d.prompt).trans (Console.continues_readLine hread)
        have hlen : c'.received.length = c.received.length + 1 := by
          obtain ⟨_, -, rfl⟩ := Console.readLine_ok hread
          rfl
        -- A line was handed out, so the script is not at its end and there is a try left.
        have hmore : ∀ {supply : List String} {n : Nat}, c'.received.reverse <+: supply →
            supply.length - c.received.length ≤ n →
            ∃ k, n = k + 1 ∧ supply.length - c'.received.length ≤ k := by
          intro supply n hs hn
          have hle := hs.length_le
          rw [List.length_reverse] at hle
          exact ⟨n - 1, by omega, by omega⟩
        dsimp only at h
        cases hv : d.understand line with
        | some value =>
          rw [hv] at h
          cases h
          refine ⟨hfirst, fun supply n hs hn => ?_⟩
          obtain ⟨k, rfl, -⟩ := hmore hs hn
          simp only [Dialogue.askFor, Console.write_scripted, Console.readLine_scripted hread hs, hv]
        | none =>
          rw [hv] at h
          obtain ⟨hrest, hagain⟩ := askFor_scripted d h
          have hsecond : c'.Continues c₁ := (c'.continues_write d.complaint).trans hrest
          refine ⟨hfirst.trans hsecond, fun supply n hs hn => ?_⟩
          have hs' := hsecond.covers hs
          obtain ⟨k, rfl, hk⟩ := hmore hs' hn
          simp only [Dialogue.askFor, Console.write_scripted, Console.readLine_scripted hread hs', hv]
          exact hagain supply k hs hk

theorem repeats_ask (function : String) (d : Dialogue α) (value : α → Value) (args : List Value) :
    Repeats (ask function d value args) := by
  intro w v w₁ h
  unfold ask at h ⊢
  cases hargs : noArguments function args with
  | error e => rw [hargs] at h; cases h
  | ok _ =>
    rw [hargs] at h
    dsimp only at h
    cases hask : d.ask w.console with
    | mk r console =>
      rw [hask] at h
      cases r with
      | error e => cases h
      | ok answer =>
        cases h
        obtain ⟨hcont, hagain⟩ := askFor_scripted d hask
        refine ⟨⟨rfl, rfl, hcont⟩, fun supply disk hs => ?_⟩
        have hsize : supply.length - w.console.received.length ≤ (w.console.scripted supply).source.size + 1 := by
          simp only [Console.scripted, Source.size, List.length_drop]
          omega
        have hscript : d.ask (w.scripted supply disk).console = (.ok answer, console.scripted supply) :=
          hagain supply _ hs hsize
        dsimp only
        rw [hscript]
        rfl

/-- **Every function but those on files repeats.** -/
theorem repeats_call (f : LibraryFunction) (args : List Value) (h : f.usesFiles = false) : Repeats (call f args) := by
  cases f <;> first | exact repeats_computed _ | skip
  case display => exact repeats_display args
  case inputInteger | inputReal | inputString | inputCharacter | inputBoolean => exact repeats_ask _ _ _ args
  case random => exact repeats_random args
  all_goals cases h

end Library

/-! ## Instructions -/

namespace Machine

/-- The machine in its world as it is with a script and another disk. -/
def scripted (supply : List String) (disk : Disk) (m : Machine) : Machine :=
  { m with world := m.world.scripted supply disk }

theorem letGo_scripted (m : Machine) (supply : List String) (disk : Disk) (vs : List Value) :
    (m.scripted supply disk).letGo vs = (m.letGo vs).scripted supply disk := by
  unfold letGo
  split <;> rfl

end Machine

namespace Exec

variable {α β : Type}

/-- It touches no file, and where it succeeds it is repeated from the lines it reads. -/
def Repeats (x : Exec α) : Prop := ∀ m a m₁, x m = .ok a m₁ → m.world.Converses m₁.world ∧
  ∀ supply disk, m₁.world.console.received.reverse <+: supply →
    x (m.scripted supply disk) = .ok a (m₁.scripted supply disk)

theorem Indoors.repeats {x : Exec α} (hx : Indoors x) : Repeats x := by
  intro m a m₁ h
  have hworld := hx.world_eq h
  refine ⟨⟨by rw [hworld], by rw [hworld], by rw [hworld]; exact .refl _⟩, fun supply disk _ => ?_⟩
  have hmoved : m₁.movedTo (m.world.scripted supply disk) = m₁.scripted supply disk :=
    congrArg (fun w => { m₁ with world := w.scripted supply disk }) hworld.symm
  rw [← hmoved]
  refine (hx m (m.world.scripted supply disk)).trans ?_
  rw [h]
  rfl

namespace Repeats

theorem pure (a : α) : Repeats (pure a : Exec α) := (Indoors.pure a).repeats

theorem bind {x : Exec α} {k : α → Exec β} (hx : Repeats x) (hk : ∀ a, Repeats (k a)) : Repeats (x >>= k) := by
  intro m b m₂ h
  obtain ⟨a, m₁, h1, h2⟩ := bind_ok_iff.1 h
  obtain ⟨hw1, hs1⟩ := hx m a m₁ h1
  obtain ⟨hw2, hs2⟩ := hk a m₁ b m₂ h2
  refine ⟨hw1.trans hw2, fun supply disk hs => ?_⟩
  exact bind_ok_iff.2 ⟨a, _, hs1 supply disk (hw2.console.covers hs), hs2 supply disk hs⟩

theorem holding {vs : List Value} {x : Exec α} (hx : Repeats x) : Repeats (holding vs x) := by
  intro m a m₂ h
  obtain ⟨m₁, h1, rfl⟩ := holding_ok_iff.1 h
  obtain ⟨hw, hs⟩ := hx m a m₁ h1
  rw [Machine.letGo_world]
  refine ⟨hw, fun supply disk hcovers => holding_ok_iff.2 ⟨_, hs supply disk hcovers, ?_⟩⟩
  rw [Machine.letGo_scripted]

end Repeats

theorem repeats_act {a : Library.Act α} (ha : Library.Repeats a) : Repeats (act a) := by
  intro m v m₁ h
  rw [act_eq] at h
  cases hw : a m.world with
  | error s w => rw [hw] at h; cases h
  | ok v' w =>
    rw [hw] at h
    cases h
    obtain ⟨hconv, hs⟩ := ha m.world v w hw
    refine ⟨hconv, fun supply disk hcovers => ?_⟩
    have hscripted : a (m.scripted supply disk).world = .ok v (w.scripted supply disk) := hs supply disk hcovers
    rw [act_eq, hscripted]
    rfl

theorem repeats_callLibrary (index nargs : Nat)
    (h : (LibraryFunction.ofIndex? index).any LibraryFunction.usesFiles = false) :
    Repeats (callLibrary index nargs) := by
  refine (indoors_popMany nargs).repeats.bind fun args => .holding ?_
  cases hf : LibraryFunction.ofIndex? index with
  | none => exact (Indoors.fault _).repeats
  | some f =>
    rw [hf] at h
    refine (repeats_act (Library.repeats_call f args h)).bind fun answer => ?_
    cases answer with
    | none => exact .pure _
    | some v => exact (indoors_push v).repeats.bind fun _ => .pure _

/-- **Every instruction but a call on files repeats.** -/
theorem repeats_op (o : Op) (h : o.usesFiles = false) : Repeats (op o) := by
  by_cases hlib : o.isLibCall = false
  · exact (indoors_op o hlib).repeats
  · cases o <;> simp only [Op.isLibCall, not_true_eq_false] at hlib
    exact repeats_callLibrary _ _ h

end Exec

/-! ## Runs -/

namespace Machine

variable {m m₁ : Machine}

theorem settle_of_noFiles (h : m.world.files = #[]) : m.settle = { m with loose := [] } := by
  have howes : m.world.owesText = false := by
    unfold World.owesText World.fileIds
    rw [h]
    rfl
  unfold settle
  by_cases hloose : m.loose.isEmpty = true
  · rw [if_pos hloose, ← List.isEmpty_iff.1 hloose]
  · rw [if_neg hloose, howes]
    rfl

theorem settle_scripted (h : m.world.files = #[]) (supply : List String) (disk : Disk) :
    (m.scripted supply disk).settle = m.settle.scripted supply disk := by
  have hscripted : (m.scripted supply disk).world.files = #[] := h
  rw [settle_of_noFiles h, settle_of_noFiles hscripted]
  rfl

theorem flowTo_scripted (m : Machine) (flow : Flow) (supply : List String) (disk : Disk) :
    (m.scripted supply disk).flowTo flow = (m.flowTo flow).scripted supply disk := by cases flow <;> rfl

/-- **A step that succeeds is repeated** from a script that covers what was read. -/
theorem step_scripted (himage : m.image.UsesNoFiles) (hfiles : m.world.files = #[]) (h : m.step = (none, m₁)) :
    m.world.Converses m₁.world ∧ ∀ supply disk, m₁.world.console.received.reverse <+: supply →
      (m.scripted supply disk).step = (none, m₁.scripted supply disk) := by
  obtain ⟨i, flow, m', hcur, hl, hop, rfl⟩ := step_ok h
  obtain ⟨hd, hi⟩ := current?_eq_some_iff.1 hcur
  have hmem : i ∈ m.image.code := Array.mem_of_getElem? hi
  obtain ⟨hconv, hagain⟩ := Exec.repeats_op i.op (himage i hmem) _ _ _ hop
  have hfiles' : (m'.flowTo flow).world.files = #[] := by
    rw [flowTo_world]
    exact hconv.files.trans hfiles
  -- No file was ever opened, so letting go at the end of the step shows nowhere in the world.
  have hworld : (m'.flowTo flow).settle.world = m'.world := by
    rw [settle_of_noFiles hfiles']
    exact flowTo_world m' flow
  rw [hworld]
  refine ⟨hconv, fun supply disk hs => ?_⟩
  have hscripted : Exec.op i.op (m.scripted supply disk).counted = .ok flow (m'.scripted supply disk) :=
    hagain supply disk hs
  have hdone : ¬ (m.scripted supply disk).isDone = true := Bool.eq_false_iff.1 hd
  have hadmits : ¬ (m.scripted supply disk).limits.maxInstructions ≤ (m.scripted supply disk).executed := Nat.not_le.2 hl
  have hinst : (m.scripted supply disk).instruction? (m.scripted supply disk).pc = some i := hi
  rw [step_eq, if_neg hdone, if_neg hadmits, hinst]
  dsimp only
  rw [hscripted]
  dsimp only
  rw [flowTo_scripted, settle_scripted hfiles']

/-- **A run that succeeds is repeated** from a script that covers what was read. -/
theorem runFor_scripted : ∀ {fuel : Nat} {m m₁ : Machine}, m.image.UsesNoFiles → m.world.files = #[] →
    m.runFor fuel = (none, m₁) → m.world.Converses m₁.world ∧
      ∀ supply disk, m₁.world.console.received.reverse <+: supply →
        (m.scripted supply disk).runFor fuel = (none, m₁.scripted supply disk)
  | 0, m, m₁, _, _, h => by
    cases h
    exact ⟨.refl _, fun _ _ _ => rfl⟩
  | fuel + 1, m, m₁, himage, hfiles, h => by
    rw [runFor] at h
    by_cases hd : m.isDone = true
    · rw [if_pos hd] at h
      cases h
      exact ⟨.refl _, fun _ _ _ => if_pos hd⟩
    · rw [if_neg hd] at h
      cases hstep : m.step with
      | mk stop m' =>
        rw [hstep] at h
        cases stop with
        | some s => cases h
        | none =>
          obtain ⟨hconv, hagain⟩ := step_scripted himage hfiles hstep
          have himage' : m'.image.UsesNoFiles := by
            have hsame := m.step_image
            rw [hstep] at hsame
            rw [hsame]
            exact himage
          obtain ⟨hconv', hrest⟩ := runFor_scripted himage' (hconv.files.trans hfiles) h
          refine ⟨hconv.trans hconv', fun supply disk hs => ?_⟩
          -- The script covers what the whole run reads, and so what it has read after this step.
          have hnext := hagain supply disk (hconv'.console.covers hs)
          rw [runFor]
          refine (if_neg hd).trans ?_
          rw [hnext]
          exact hrest supply disk hs

theorem leftWorld_of_noFiles (h : m.world.files = #[]) : m.leftWorld = m.world := by
  unfold leftWorld
  rw [settle_of_noFiles (by rw [letGo_world]; exact h)]
  exact letGo_world _ _

theorem create?_scripted (image : Image) (limits : Limits) (w : World) (supply : List String) (disk : Disk) :
    create? image limits (w.scripted supply disk) = (create? image limits w).map (scripted supply disk) := by
  unfold create?
  cases bottom? image <;> rfl

theorem runTraced_ok (h : m.runTraced = (.ok none, m₁)) : m.run = (none, m₁) := by
  unfold runTraced at h
  split at h
  · rename_i m' hrun
    cases h
    exact hrun
  · rename_i s m' hrun
    cases hexplain : m'.explain s <;> rw [hexplain] at h <;> cases h

end Machine

/-- **An execution that succeeds is repeated** from a script that begins with the lines it read, on whatever disk. -/
theorem Cli.execute_scripted {image : Image} {limits : Limits} {w w₁ : World} (himage : image.UsesNoFiles)
    (hfiles : w.files = #[]) (h : Cli.execute image limits w = (.ok none, w₁)) :
    w.Converses w₁ ∧ ∀ supply disk, w₁.console.received.reverse <+: supply →
      Cli.execute image limits (w.scripted supply disk) = (.ok none, w₁.scripted supply disk) := by
  unfold Cli.execute at h ⊢
  cases hm : Machine.create? image limits w with
  | none => rw [hm] at h; cases h
  | some m =>
    rw [hm] at h
    dsimp only at h
    have hstart : m.image = image ∧ m.world = w := by
      obtain ⟨frame, -, rfl⟩ := Option.map_eq_some_iff.1 hm
      exact ⟨rfl, rfl⟩
    obtain ⟨rfl, rfl⟩ := hstart
    cases hrun : m.runTraced with
    | mk report m₁ =>
      rw [hrun] at h
      cases h
      obtain ⟨hconv, hagain⟩ := Machine.runFor_scripted himage hfiles (Machine.runTraced_ok hrun)
      have hfiles₁ : m₁.world.files = #[] := hconv.files.trans hfiles
      rw [Machine.leftWorld_of_noFiles hfiles₁]
      refine ⟨hconv, fun supply disk hs => ?_⟩
      have hscripted : (m.scripted supply disk).run = (none, m₁.scripted supply disk) := hagain supply disk hs
      have hleft : (m₁.scripted supply disk).leftWorld = m₁.world.scripted supply disk :=
        Machine.leftWorld_of_noFiles hfiles₁
      rw [Machine.create?_scripted, hm]
      simp only [Option.map_some, Machine.runTraced, hscripted, hleft]

end PseudoVm
