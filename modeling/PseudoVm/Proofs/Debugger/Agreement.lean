import Mathlib.Data.List.Pairwise
import PseudoVm.Cli.Debug
import PseudoVm.Proofs.Session.LineBinding
import PseudoVm.Proofs.World.DiskWrites
/-!
# Debugger.Agreement: a debugger and its session agree on breakpoints

A debugger keeps the lines with a breakpoint, its session a bit for each instruction that they are bound to.  All
commands but two leave both alone (`Debugger.Keeps`), and so does a program that gets on in the background.  Those that
set and delete breakpoints send the session all lines that are to have one.  So the bits are those of the lines, and each
line carries code, whatever is typed (`breakpoints_agree`).
-/
namespace PseudoVm

/-! ## What leaves breakpoints alone -/

namespace Session

variable {s s' : Session}

/-- A turn of the worker; with the end of its burst it reports the outcome. -/
def workOn (s : Session) : Session :=
  if s.working then
    match if s.stopOnEntry then s.enter else s.tick with
    | (none, s) => s
    | (some o, s) => (s.conclude o).report o
  else s

theorem stays_workOn : s.Stays s.workOn := by
  have hsec : Section s (if s.stopOnEntry then s.enter else s.tick).1
      (if s.stopOnEntry then s.enter else s.tick).2 := by
    cases s.stopOnEntry with
    | true => exact s.section_enter
    | false => exact s.section_tick
  unfold workOn
  split
  · split
    · rename_i s' hs
      rw [hs] at hsec
      exact hsec.stays
    · rename_i o s' hs
      rw [hs] at hsec
      exact (hsec.stays.trans (stays_conclude o)).trans (stays_report (eventsOf o)).1
  · exact .refl s

theorem stays_reset : s.Stays s.reset := by
  have hhalt : s.Stays s.requestHalt := .of_machine_eq rfl rfl rfl
  exact (hhalt.trans stays_wait).trans (.of_move (.rewind _) rfl rfl)

end Session

namespace Debugger

/-- **Breakpoints and what they are bound to are as they were.** -/
structure Keeps (d d' : Debugger) : Prop where
  table : d'.session.table = d.session.table
  lineBreaks : d'.session.lineBreaks = d.session.lineBreaks
  breakpoints : d'.breakpoints = d.breakpoints

variable {d d' d'' : Debugger}

theorem Keeps.refl (d : Debugger) : d.Keeps d := ⟨rfl, rfl, rfl⟩

theorem Keeps.trans (h : d.Keeps d') (h' : d'.Keeps d'') : d.Keeps d'' :=
  ⟨h'.table.trans h.table, h'.lineBreaks.trans h.lineBreaks, h'.breakpoints.trans h.breakpoints⟩

theorem Keeps.of_stays (h : d.session.Stays d'.session) (hb : d'.breakpoints = d.breakpoints) : d.Keeps d' :=
  ⟨h.table, congrArg Session.Settings.lineBreaks h.settings, hb⟩

theorem keeps_write (text : String) : d.Keeps (d.write text) := ⟨rfl, rfl, rfl⟩

theorem keeps_sayAll : ∀ (lines : List String) {d : Debugger}, d.Keeps (d.sayAll lines)
  | [], d => .refl d
  | line :: lines, _ => (keeps_write (line ++ "\n")).trans (keeps_sayAll lines)

theorem keeps_announce : d.Keeps d.announce := by
  have hheard : d.Keeps { d with session := { d.session with events := [] } } := ⟨rfl, rfl, rfl⟩
  exact hheard.trans (keeps_sayAll _)

theorem keeps_showSource (center reach : Nat) : d.Keeps (d.showSource center reach) := by
  unfold showSource
  split
  · exact .refl d
  · exact keeps_sayAll _

theorem keeps_showLocation : d.Keeps d.showLocation := (keeps_write _).trans (keeps_showSource _ _)

theorem keeps_showException : d.Keeps d.showException := by
  unfold showException
  split
  · exact (keeps_write _).trans (keeps_write _)
  · exact .refl d

theorem keeps_showStop : d.Keeps d.showStop := by
  unfold showStop
  split
  · exact keeps_showException.trans keeps_showLocation
  · exact .refl d

/-- Whatever debugger a command leads to has a property; one that breaks off leads to none. -/
def Yields (P : Debugger → Prop) (r : Except Abort Debugger) : Prop := ∀ d, r = .ok d → P d

section Yields

variable {P Q : Debugger → Prop} {r : Except Abort Debugger}

theorem yields_ok (h : P d) : Yields P (.ok d) := by
  intro d' he
  cases he
  exact h

theorem Yields.map {f : Debugger → Debugger} (h : Yields Q r) (hf : ∀ d, Q d → P (f d)) : Yields P (r.map f) := by
  cases r with
  | ok d => exact yields_ok (hf d (h d rfl))
  | error a =>
    intro d he
    cases he

theorem yields_bind {α : Type} {x : Except Abort α} {f : α → Except Abort Debugger}
    (h : ∀ a, x = .ok a → Yields P (f a)) : Yields P (x >>= f) := by
  intro d he
  obtain ⟨a, ha, hd⟩ := Disk.bind_ok he
  exact h a ha d hd

theorem yields_reached (h : P d) : Yields P d.reached := by
  intro d' he
  unfold reached at he
  split at he <;> cases he
  exact h

theorem Yields.reached_bind {f : Debugger → Except Abort Debugger} (h : Yields P (f d)) :
    Yields P (d.reached >>= f) := by
  refine yields_bind fun d' he => ?_
  rw [yields_reached (P := (· = d)) rfl d' he]
  exact h

end Yields

theorem keeps_settle (h : d.Keeps d') : Yields d.Keeps d'.settle := by
  have hwait : d'.Keeps { d' with session := d'.session.wait } := .of_stays Session.stays_wait rfl
  exact (yields_reached (h.trans hwait)).map fun w hw => hw.trans keeps_announce

theorem keeps_resume (h : d.Keeps d') (background : Bool) : Yields d.Keeps (d'.resume background) := by
  have hground : d'.Keeps { d' with background := background } := ⟨rfl, rfl, rfl⟩
  unfold resume
  dsimp only
  cases hs : d'.session.start with
  | error e => exact yields_ok (h.trans (hground.trans (keeps_write _)))
  | ok s =>
    have hstart : d'.Keeps { d' with background := background, session := s, started := true } :=
      .of_stays (Session.stays_start hs) rfl
    dsimp only
    split
    · exact yields_ok (h.trans hstart)
    · exact (keeps_settle (h.trans hstart)).map fun w hw => hw.trans keeps_showStop

theorem keeps_run : Yields d.Keeps d.run := by
  have hreset : d.Keeps { d with session := d.session.reset } := .of_stays Session.stays_reset rfl
  unfold run
  split
  · exact Yields.reached_bind (keeps_resume (hreset.trans (keeps_announce.trans (keeps_write _))) false)
  · exact keeps_resume (keeps_write _) false

theorem keeps_step (kind : StepKind) (granularity : Granularity) : Yields d.Keeps (d.step kind granularity) := by
  have harm : d.Keeps { d with session := d.session.armStep kind granularity } :=
    .of_stays (Session.stays_apply (r := .step kind granularity) rfl d.session) rfl
  unfold step
  split
  · exact yields_ok (keeps_write _)
  · exact keeps_resume harm false

theorem keeps_pause : Yields d.Keeps d.pause := by
  have hpause : d.Keeps { d with session := d.session.pause } :=
    .of_stays (Session.stays_apply (r := .pause) rfl d.session) rfl
  have hfront : ∀ d : Debugger, d.Keeps { d with background := false } := fun d => ⟨rfl, rfl, rfl⟩
  unfold pause
  split
  · refine Yields.reached_bind (yields_bind fun w hw => yields_ok ?_)
    exact (keeps_settle hpause w hw).trans ((hfront w).trans keeps_showStop)
  · exact yields_ok (keeps_write _)

theorem keeps_listBreakpoints : d.Keeps d.listBreakpoints := by
  unfold listBreakpoints
  split
  · exact keeps_write _
  · exact keeps_sayAll _

theorem keeps_showVariables (id : Option Nat) : Yields d.Keeps (d.showVariables id) := by
  unfold showVariables
  refine yields_bind fun frames _ => ?_
  dsimp only
  split
  · exact yields_bind fun rows _ => yields_ok (keeps_sayAll rows)
  · exact yields_ok (keeps_write _)

theorem keeps_showStack : Yields d.Keeps d.showStack := by
  unfold showStack
  refine yields_bind fun frames _ => ?_
  split
  · exact yields_ok (keeps_write _)
  · exact yields_ok (keeps_sayAll _)

theorem keeps_restart (id : Nat) : d.Keeps (d.restart id) := by
  unfold restart
  cases h : d.session.restartFrame id with
  | error e => exact keeps_write _
  | ok s =>
    have hstays := Session.stays_apply (r := .restartFrame id) rfl d.session
    rw [Request.apply, h] at hstays
    have hrestart : d.Keeps { d with session := s } := .of_stays hstays rfl
    exact hrestart.trans keeps_showLocation

/-- **Every command but those that set and delete breakpoints leaves them alone.** -/
theorem keeps_execute (d : Debugger) {command : Command} (hset : ∀ line, command ≠ .setBreakpoint (some line))
    (hdelete : ∀ which, command ≠ .delete (some which)) : Yields d.Keeps (d.execute command) := by
  cases command with
  | help => exact yields_ok (keeps_sayAll _)
  | quit => exact yields_ok ⟨rfl, rfl, rfl⟩
  | run => exact keeps_run
  | resume background => exact keeps_resume (.refl d) background
  | step kind granularity => exact keeps_step kind granularity
  | pause => exact keeps_pause
  | setBreakpoint line =>
    cases line with
    | none => exact yields_ok (keeps_write _)
    | some line => exact absurd rfl (hset line)
  | delete which =>
    cases which with
    | none => exact yields_ok (keeps_write _)
    | some which => exact absurd rfl (hdelete which)
  | breakpoints => exact yields_ok keeps_listBreakpoints
  | list line =>
    cases line with
    | none => exact (yields_reached (Keeps.refl d)).map fun w hw => hw.trans (keeps_showSource _ _)
    | some line => exact yields_ok (keeps_showSource _ _)
  | showVariables id => exact keeps_showVariables id
  | backtrace => exact keeps_showStack
  | restart id =>
    cases id with
    | none => exact yields_ok (keeps_write _)
    | some id => exact (yields_reached (Keeps.refl d)).map fun w hw => hw.trans (keeps_restart id)
  | unknown name => exact yields_ok (keeps_write _)

/-! ## What changes them -/

/-- **A debugger and its session agree on breakpoints** in a program whose lines are in the table. -/
structure Agrees (t : LineTable) (d : Debugger) : Prop where
  table : d.session.table = t
  bits : d.session.HasBits
  bound : ∀ pc, d.session.lineBreaks.getD pc false = true ↔ ∃ line ∈ d.breakpoints, t.firstOf? line = some pc
  carried : ∀ line ∈ d.breakpoints, t.carriesCode line = true
  ascending : d.breakpoints.Pairwise (· < ·)

variable {t : LineTable}

theorem Agrees.keeps (h : d.Agrees t) (hk : d.Keeps d') : d'.Agrees t where
  table := hk.table.trans h.table
  bits := Session.SameRows.hasBits ⟨hk.table, congrArg Array.size hk.lineBreaks⟩ h.bits
  bound := by rw [hk.lineBreaks, hk.breakpoints]; exact h.bound
  carried := by rw [hk.breakpoints]; exact h.carried
  ascending := by rw [hk.breakpoints]; exact h.ascending

/-- **A request replaces the bits by those of its lines.** -/
theorem Agrees.asked (h : d.Agrees t) (lines : List Nat) :
    (d.session.setLineBreakpoints lines).2.HasBits ∧
    ∀ pc, (d.session.setLineBreakpoints lines).2.lineBreaks.getD pc false = true ↔
      ∃ line ∈ lines, t.firstOf? line = some pc := by
  refine ⟨Session.SameRows.hasBits ((Request.lineBreakpoints lines).sameRows_apply d.session) h.bits, fun pc => ?_⟩
  rw [← h.table]
  exact Session.lineBreaks_setLineBreakpoints h.bits

theorem Agrees.keepBreakpoints {lines : List Nat} (h : d.Agrees t) (hs : lines.Sublist d.breakpoints) :
    (d.keepBreakpoints lines).Agrees t where
  table := h.table
  bits := (h.asked lines).1
  bound := (h.asked lines).2
  carried line hl := h.carried line (hs.mem hl)
  ascending := h.ascending.sublist hs

theorem Agrees.delete (h : d.Agrees t) (which : Selection) : (d.delete which).Agrees t := by
  cases which with
  | all => exact (h.keepBreakpoints (List.nil_sublist _)).keeps (keeps_write _)
  | line line =>
    show (if line ∈ d.breakpoints then
      (d.keepBreakpoints (d.breakpoints.filter (· != line))).say s!"Breakpoint on line {line} deleted."
      else (d.keepBreakpoints d.breakpoints).say s!"No breakpoint on line {line}.").Agrees t
    split
    · exact (h.keepBreakpoints List.filter_sublist).keeps (keeps_write _)
    · exact (h.keepBreakpoints (List.Sublist.refl _)).keeps (keeps_write _)
  | invalid word => exact (h.keepBreakpoints (List.Sublist.refl _)).keeps (keeps_write _)

theorem find?_lineStatus {line : Nat} {lines : List Nat} (h : line ∈ lines) :
    (lines.map (Session.lineStatus t)).find? (·.requested == line) = some (Session.lineStatus t line) := by
  have hsome : ((lines.map (Session.lineStatus t)).find? (·.requested == line)).isSome = true :=
    List.find?_isSome.2 ⟨_, List.mem_map_of_mem h, beq_iff_eq.2 (Session.requested_lineStatus t line)⟩
  obtain ⟨status, hstatus⟩ := Option.isSome_iff_exists.1 hsome
  obtain ⟨l, -, rfl⟩ := List.mem_map.1 (List.mem_of_find?_eq_some hstatus)
  have hl := @List.find?_some BreakpointStatus (·.requested == line) _ _ hstatus
  rw [hstatus, ← beq_iff_eq.1 hl, Session.requested_lineStatus]

theorem mem_insertLine {line l : Nat} : ∀ {ls : List Nat}, l ∈ insertLine line ls ↔ l = line ∨ l ∈ ls
  | [] => by rw [insertLine, List.mem_singleton, or_iff_left List.not_mem_nil]
  | k :: ls => by
    rw [insertLine]
    split
    · rw [List.mem_cons]
    split
    · rename_i hk
      rw [hk, List.mem_cons, or_self_left]
    · rw [List.mem_cons, mem_insertLine, List.mem_cons, or_left_comm]

theorem pairwise_insertLine {line : Nat} : ∀ {ls : List Nat}, ls.Pairwise (· < ·) →
    (insertLine line ls).Pairwise (· < ·)
  | [], _ => List.pairwise_singleton _ line
  | k :: ls, h => by
    rw [insertLine]
    split
    · rename_i hlt
      refine List.pairwise_cons.2 ⟨fun l hl => ?_, h⟩
      rcases List.mem_cons.1 hl with rfl | hl
      · exact hlt
      · exact Nat.lt_trans hlt (List.rel_of_pairwise_cons h hl)
    split
    · exact h
    · rename_i hlt hne
      refine List.pairwise_cons.2 ⟨fun l hl => ?_, pairwise_insertLine h.of_cons⟩
      rcases mem_insertLine.1 hl with rfl | hl
      · omega
      · exact List.rel_of_pairwise_cons h hl

theorem Agrees.setBreakpoint (h : d.Agrees t) (line : Nat) : (d.setBreakpoint line).Agrees t := by
  have hasked : line ∈ d.breakpoints ++ [line] := List.mem_append_right _ (List.mem_singleton_self line)
  have hstatus : (d.session.setLineBreakpoints (d.breakpoints ++ [line])).1.find? (·.requested == line) =
      some (Session.lineStatus t line) := by
    rw [← h.table]
    exact find?_lineStatus hasked
  obtain ⟨hbits, hbound⟩ := h.asked (d.breakpoints ++ [line])
  simp only [List.mem_append, List.mem_singleton, or_and_right, exists_or, exists_eq_left] at hbound
  unfold Debugger.setBreakpoint
  dsimp only
  rw [hstatus]
  unfold Session.lineStatus
  cases hfirst : t.firstOf? line with
  | none =>
    have hsame : ({ d with
        session := (d.session.setLineBreakpoints (d.breakpoints ++ [line])).2 } : Debugger).Agrees t :=
      ⟨h.table, hbits, fun pc => by rw [hbound, hfirst]; simp, h.carried, h.ascending⟩
    exact hsame.keeps (keeps_write _)
  | some pc =>
    have hmore : ({ d with
        session := (d.session.setLineBreakpoints (d.breakpoints ++ [line])).2
        breakpoints := insertLine line d.breakpoints } : Debugger).Agrees t := by
      refine ⟨h.table, hbits, fun pc' => ?_, fun l hl => ?_, pairwise_insertLine h.ascending⟩
      · rw [hbound]
        simp only [mem_insertLine, or_and_right, exists_or, exists_eq_left]
        exact or_comm
      · rcases mem_insertLine.1 hl with rfl | hl
        · exact Option.isSome_iff_exists.2 ⟨pc, hfirst⟩
        · exact h.carried l hl
    exact hmore.keeps (keeps_write _)

/-- **Every command keeps the agreement.** -/
theorem Agrees.execute (h : d.Agrees t) (command : Command) : Yields (Agrees t) (d.execute command) := by
  by_cases hset : ∃ line, command = .setBreakpoint (some line)
  · obtain ⟨line, rfl⟩ := hset
    exact (yields_reached h).map fun w hw => hw.setBreakpoint line
  by_cases hdelete : ∃ which, command = .delete (some which)
  · obtain ⟨which, rfl⟩ := hdelete
    exact (yields_reached h).map fun w hw => hw.delete which
  exact fun w hw => h.keeps (d.keeps_execute (not_exists.1 hset) (not_exists.1 hdelete) w hw)

/-! ## Whatever is typed -/

/-- What happens at a debugger. -/
inductive Happening
  /-- A line is typed. -/
  | line (text : String)
  /-- A program in the background gets on by a turn of its worker. -/
  | turn

/-- The debugger after something happened. -/
def meet (d : Debugger) : Happening → Except Abort Debugger
  | .line text => d.executeLine text
  | .turn => .ok { d with session := d.session.workOn }.announce

theorem Agrees.meet (h : d.Agrees t) (happening : Happening) : Yields (Agrees t) (d.meet happening) := by
  cases happening with
  | line text =>
    show Yields (Agrees t) (d.executeLine text)
    unfold executeLine
    split
    · exact h.execute _
    · exact yields_ok h
  | turn =>
    have hturn : d.Keeps { d with session := d.session.workOn } := .of_stays Session.stays_workOn rfl
    exact yields_ok (h.keeps (hturn.trans keeps_announce))

theorem Agrees.foldlM_meet : ∀ (happenings : List Happening) {d : Debugger}, d.Agrees t →
    Yields (Agrees t) (happenings.foldlM Debugger.meet d)
  | [], _, h => yields_ok h
  | happening :: happenings, d, h => by
    rw [List.foldlM_cons]
    exact yields_bind fun w hw => foldlM_meet happenings (h.meet happening w hw)

theorem Agrees.foldl_setBreakpoint : ∀ (lines : List Nat) {d : Debugger}, d.Agrees t →
    (lines.foldl Debugger.setBreakpoint d).Agrees t
  | [], _, h => h
  | line :: lines, _, h => foldl_setBreakpoint lines (h.setBreakpoint line)

theorem agrees_prepare {image : Image} {limits : Limits} {world : World} {s : Session}
    (h : Session.create? image limits world = some s) (options : Cli.DebugOptions) (fileName : String)
    (source : Option String) : (Cli.prepare s options fileName source).Agrees s.table := by
  obtain ⟨-, hs⟩ := Session.create?_eq h
  have hrows : s.SameRows (if options.stopOnEntry = true then ({ s with file := fileName } : Session).requestEntry
      else { s with file := fileName }) := by
    split <;> exact ⟨rfl, rfl⟩
  have hbreaks : (if options.stopOnEntry = true then ({ s with file := fileName } : Session).requestEntry
      else { s with file := fileName }).lineBreaks = .replicate s.machine.image.code.size false := by
    split <;> exact congrArg Session.lineBreaks hs
  unfold Cli.prepare
  refine Agrees.keeps (Agrees.foldl_setBreakpoint _ ?_) (keeps_sayAll _)
  refine ⟨hrows.table, hrows.hasBits (Session.hasBits_create? h), fun pc => ?_, nofun, .nil⟩
  rw [hbreaks, Session.getD_clear]
  exact ⟨nofun, fun ⟨_, hl, _⟩ => absurd hl List.not_mem_nil⟩

/-- **A debugger and its session agree on breakpoints**, whatever lines it is started with and whatever is typed, and
however far the program gets in the background meanwhile: the session breaks at the first instruction of each line that
has a breakpoint and nowhere else, and each of these lines carries code. -/
theorem breakpoints_agree {image : Image} {limits : Limits} {world : World} {s : Session}
    (h : Session.create? image limits world = some s) (options : Cli.DebugOptions) (fileName : String)
    (source : Option String) {happenings : List Happening} {d : Debugger}
    (hd : happenings.foldlM meet (Cli.prepare s options fileName source) = .ok d) :
    (∀ pc, d.session.lineBreaks.getD pc false = true ↔ ∃ line ∈ d.breakpoints, image.StartsLine line pc) ∧
    (∀ line ∈ d.breakpoints, 0 < line ∧ image.CarriesLine line) ∧ d.breakpoints.Pairwise (· < ·) := by
  have ht := Session.ofImage?_of_create? h
  have hagrees := Agrees.foldlM_meet happenings (agrees_prepare h options fileName source) d hd
  have hcarried := fun line hl => (LineTable.isSome_firstOf?_iff_carriesLine ht).1 (hagrees.carried line hl)
  refine ⟨fun pc => (hagrees.bound pc).trans ?_, hcarried, hagrees.ascending⟩
  constructor
  · rintro ⟨line, hl, hfirst⟩
    exact ⟨line, hl, ((LineTable.firstOf?_iff_startsLine ht).1 hfirst).2⟩
  · rintro ⟨line, hl, hstarts⟩
    exact ⟨line, hl, (LineTable.firstOf?_iff_startsLine ht).2 ⟨(hcarried line hl).1, hstarts⟩⟩

/-- Lines that are typed in the session of a program whose lines go forth and back: some have no code, some are no
numbers, one is set twice, and the program is run, sent to the background and started over. -/
def strayLines : List Happening :=
  [.line "break 1", .line "b 3 now", .line "BREAK +3", .line "break 9", .line "run", .line "d 2", .line "step",
    .line "continue &", .turn, .line "delete", .line "pause", .line "delete x", .line "run", .line "", .line "breaks 2"]

/-- Two lines keep their breakpoints, which are those at the first instruction of each. -/
theorem breakpoints_agree_strayLines :
    Session.create? zigzag {} zigzagSession.machine.world = some zigzagSession ∧
    ∃ d, strayLines.foldlM meet (Cli.prepare zigzagSession { breakpoints := [2, 0, 2] } "zigzag" none) = .ok d ∧
      d.breakpoints = [1, 3] ∧ d.session.lineBreaks = #[false, true, true, false, false, false] ∧
      ∀ pc, d.session.lineBreaks.getD pc false = true ↔ ∃ line ∈ [1, 3], zigzag.StartsLine line pc := by
  have hcreate : Session.create? zigzag {} zigzagSession.machine.world = some zigzagSession := rfl
  have hkept : (strayLines.foldlM meet (Cli.prepare zigzagSession { breakpoints := [2, 0, 2] } "zigzag" none)).map
      (fun d => (d.breakpoints, d.session.lineBreaks)) = .ok ([1, 3], #[false, true, true, false, false, false]) := by
    decide +kernel
  cases hd : strayLines.foldlM meet (Cli.prepare zigzagSession { breakpoints := [2, 0, 2] } "zigzag" none) with
  | error a =>
    rw [hd] at hkept
    cases hkept
  | ok d =>
    rw [hd] at hkept
    obtain ⟨hlines, hbreaks⟩ := Prod.mk.inj (Except.ok.inj hkept)
    obtain ⟨hbound, -, -⟩ := breakpoints_agree hcreate { breakpoints := [2, 0, 2] } "zigzag" none hd
    rw [hlines] at hbound
    exact ⟨hcreate, d, rfl, hlines, hbreaks, hbound⟩

end Debugger

end PseudoVm
