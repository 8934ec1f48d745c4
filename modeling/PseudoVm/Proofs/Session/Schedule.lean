import PseudoVm.Proofs.Machine.Runs
import PseudoVm.Session.Control
import PseudoVm.Session.Inspect
/-!
# Session.Schedule: controllers and a worker at one session

Controllers make requests while a worker works off a burst.  The worker gives way before every instruction, and it
reports its outcome only after its last section, so requests come between any two of its turns and between its end and
its report.  What happens at a session is a list of acts; nothing is said about their order.

`Session.Controls` says what a request can do to a session if it leaves the program alone, `Session.Section` what a turn
of the worker can do; all that holds along schedules rests on these two.  What a worker does by itself is a schedule too
(`Desk.exists_run_eq_work`).
-/
namespace PseudoVm

/-- What a controller asks for.  A look at a session changes nothing and is not listed. -/
inductive Request
  | play
  | pause
  | step (kind : StepKind) (granularity : Granularity)
  | lineBreakpoints (lines : List Nat)
  | instBreakpoints (pcs : List Nat)
  | stopOnEntry
  | noDebug
  | name (file : String)
  | halt
  | terminate
  | suppress (on : Bool)
  | setVariable (id : Nat) (which : Variable) (v : Value)
  | restartFrame (id : Nat)
  | evaluate (id : Nat) (code : List Instruction)
  | rewind

namespace Request

/-- Whether a request waits until the session is free. -/
def needsSession : Request → Bool
  | .play | .suppress _ => false
  | _ => true

/-- Whether a request leaves alone what the program has done, and what of it is reported. -/
def isTransparent : Request → Bool
  | .suppress _ | .setVariable .. | .restartFrame _ | .evaluate .. | .rewind => false
  | _ => true

/-- The session after a request; one that is refused changes nothing. -/
def apply (s : Session) : Request → Session
  | .play => s.start.toOption.getD s
  | .pause => s.pause
  | .step kind granularity => s.armStep kind granularity
  | .lineBreakpoints lines => (s.setLineBreakpoints lines).2
  | .instBreakpoints pcs => (s.setInstBreakpoints pcs).2
  | .stopOnEntry => s.requestEntry
  | .noDebug => { s with noDebug := true }
  | .name file => { s with file := file }
  | .halt => s.requestHalt
  | .terminate => s.terminate
  | .suppress on => { s with suppressed := on }
  | .setVariable id which v => (s.setVariable id which v).toOption.getD s
  | .restartFrame id => (s.restartFrame id).toOption.getD s
  | .evaluate id code => (s.evaluate id code).2
  | .rewind => s.rewound

end Request

/-- The session after a request is made: one that needs a stuck session waits for ever. -/
def Session.asked (s : Session) (r : Request) : Session := if s.stuck && r.needsSession then s else r.apply s

/-- What happens at a session: a request, a turn of the worker, or the report of an event. -/
inductive Act
  | ask (r : Request)
  | turn
  | deliver

namespace Act

/-- Whether an act leaves alone what the program has done, and what of it is reported. -/
def isTransparent : Act → Bool
  | .ask r => r.isTransparent
  | .turn | .deliver => true

/-- Whether the worker has a turn. -/
def isTurn : Act → Bool
  | .turn => true
  | _ => false

end Act

/-- A session with what its worker has still to do. -/
structure Desk where
  session : Session
  /-- Whether the worker has begun with the instructions. -/
  entered : Bool := false
  /-- Events still to be reported. -/
  pending : List Event := []

namespace Desk

/-- A turn of the worker, if there is one. -/
def turn (d : Desk) : Desk :=
  if d.session.working then
    match if d.entered then d.session.tick else d.session.enter with
    | (none, s) => { d with session := s, entered := true }
    | (some o, s) => ⟨s.conclude o, false, d.pending ++ Session.eventsOf o⟩
  else d

/-- The report of the next event. -/
def deliver (d : Desk) : Desk :=
  match d.pending with
  | [] => d
  | e :: rest => { d with session := d.session.emit e, pending := rest }

/-- The desk after an act. -/
def perform (d : Desk) : Act → Desk
  | .ask r => { d with session := d.session.asked r }
  | .turn => d.turn
  | .deliver => d.deliver

/-- **The desk after a schedule.** -/
def run (d : Desk) (acts : List Act) : Desk := acts.foldl perform d

/-- The desk of a session without a worker. -/
def of (s : Session) : Desk := { session := s }

/-- What has been reported and what will be, in order. -/
def log (d : Desk) : List Event := d.session.events ++ d.pending

@[simp] theorem run_cons (d : Desk) (a : Act) (acts : List Act) : d.run (a :: acts) = (d.perform a).run acts := rfl

theorem run_append (d : Desk) (as bs : List Act) : d.run (as ++ bs) = (d.run as).run bs := List.foldl_append

theorem run_keeps {P : Desk → Prop} : ∀ {acts : List Act} {d : Desk}, (∀ d, ∀ a ∈ acts, P d → P (d.perform a)) →
    P d → P (d.run acts)
  | [], _, _, h => h
  | a :: _, d, hstep, h => by
    rw [run_cons]
    exact run_keeps (fun d b hb => hstep d b (List.mem_cons_of_mem a hb)) (hstep d a List.mem_cons_self h)

end Desk

namespace Session

theorem getD_clear (size pc : Nat) : (Array.replicate size false).getD pc false = false := by
  rw [Array.getD_eq_getD_getElem?, Array.getElem?_replicate]
  split <;> rfl

theorem create?_eq {image : Image} {limits : Limits} {world : World} {s : Session}
    (h : create? image limits world = some s) :
    Machine.create? image limits world = some s.machine ∧ s = { machine := s.machine, table := s.table } := by
  obtain ⟨table, -, h⟩ := Option.bind_eq_some_iff.1 h
  obtain ⟨machine, hm, h⟩ := Option.bind_eq_some_iff.1 h
  cases h
  exact ⟨hm, rfl⟩

/-! ## Requests -/

/-- **A session is played exactly if no worker is live and it is not at its end.** -/
theorem start_eq_ok {s s' : Session} : s.start = .ok s' ↔
    s.running = false ∧ s.refusal? = none ∧ s' = { s with running := true, runState := .running, exception := none } := by
  unfold start reserve?
  cases hr : s.running with
  | true =>
    constructor
    · intro h; cases h
    · rintro ⟨h, -⟩; cases h
  | false =>
    have hg : ({ s with running := true } : Session).refusal? = s.refusal? := rfl
    rw [if_neg Bool.false_ne_true]
    dsimp only
    rw [grant, hg]
    cases s.refusal? with
    | some e =>
      constructor
      · intro h; cases h
      · rintro ⟨-, h, -⟩; cases h
    | none =>
      constructor
      · intro h; cases h; exact ⟨rfl, rfl, rfl⟩
      · rintro ⟨-, -, rfl⟩; rfl

theorem refusal?_eq_none {s : Session} :
    s.refusal? = none ↔ s.done = false ∧ s.runState ≠ .halted ∧ s.runState ≠ .terminated := by
  unfold refusal?
  cases s.done <;> cases s.runState <;> simp

/-- What a request can do that leaves the program alone: it may start a worker, or report the end. -/
structure Controls (s s' : Session) : Prop where
  machine : s'.machine = s.machine
  done : s'.done = s.done
  suppressed : s'.suppressed = s.suppressed
  events : s'.events = s.events ∨ s'.events = s.events ++ [.terminated]
  stuck : s'.stuck = s.stuck
  worker : s'.running = s.running ∧ s'.exception = s.exception ∨
    s.running = false ∧ s.refusal? = none ∧ s'.exception = none
  terminated : s.runState = .terminated → s'.runState = .terminated

theorem Controls.refl (s : Session) : Controls s s := ⟨rfl, rfl, rfl, .inl rfl, rfl, .inl ⟨rfl, rfl⟩, fun h => h⟩

theorem controls_start (s : Session) : Controls s (s.start.toOption.getD s) := by
  cases h : s.start with
  | error e => exact .refl s
  | ok s' =>
    obtain ⟨hr, hf, rfl⟩ := start_eq_ok.1 h
    exact ⟨rfl, rfl, rfl, .inl rfl, rfl, .inr ⟨hr, hf, rfl⟩, fun ht => absurd ht (refusal?_eq_none.1 hf).2.2⟩

theorem controls_pause (s : Session) : Controls s s.pause := by
  unfold pause
  split
  · exact .refl s
  · rename_i h
    refine ⟨rfl, rfl, rfl, .inl rfl, rfl, .inl ⟨rfl, rfl⟩, fun ht => absurd ?_ h⟩
    rw [ht]
    exact Bool.or_true _

theorem controls_requestHalt (s : Session) : Controls s s.requestHalt :=
  ⟨rfl, rfl, rfl, .inl rfl, rfl, .inl ⟨rfl, rfl⟩, fun ht => if_pos ht⟩

theorem terminate_eq (s : Session) : s.terminate =
    if s.noDebug || s.runState.isFinal then s
    else if s.running || s.suppressed then { s with runState := .terminated, step := none }
    else { s with runState := .terminated, step := none, events := s.events ++ [.terminated] } := by
  unfold terminate requestTerminate
  cases s.noDebug || s.runState.isFinal
  · cases hr : s.running
    · unfold emit
      cases s.suppressed <;> rfl
    · rfl
  · rfl

theorem controls_terminate (s : Session) : Controls s s.terminate := by
  rw [terminate_eq]
  split
  · exact .refl s
  · split
    · exact ⟨rfl, rfl, rfl, .inl rfl, rfl, .inl ⟨rfl, rfl⟩, fun _ => rfl⟩
    · exact ⟨rfl, rfl, rfl, .inr rfl, rfl, .inl ⟨rfl, rfl⟩, fun _ => rfl⟩

theorem controls_armStep (s : Session) (kind : StepKind) (granularity : Granularity) :
    Controls s (s.armStep kind granularity) := by
  unfold armStep
  split
  · exact .refl s
  · exact ⟨rfl, rfl, rfl, .inl rfl, rfl, .inl ⟨rfl, rfl⟩, fun h => h⟩

theorem controls_apply {r : Request} (hr : r.isTransparent = true) (s : Session) : Controls s (r.apply s) := by
  cases r with
  | play => exact controls_start s
  | pause => exact controls_pause s
  | step kind granularity => exact controls_armStep s kind granularity
  | halt => exact controls_requestHalt s
  | terminate => exact controls_terminate s
  | lineBreakpoints | instBreakpoints | stopOnEntry | noDebug | name =>
    exact ⟨rfl, rfl, rfl, .inl rfl, rfl, .inl ⟨rfl, rfl⟩, fun h => h⟩
  | suppress | setVariable | restartFrame | evaluate | rewind => cases hr

/-- A session that agrees with another in all that tells what its worker will do. -/
structure Agrees (s s' : Session) : Prop where
  machine : s'.machine = s.machine
  done : s'.done = s.done
  noDebug : s'.noDebug = s.noDebug
  runState : s'.runState = s.runState
  running : s'.running = s.running
  stuck : s'.stuck = s.stuck
  suppressed : s'.suppressed = s.suppressed
  events : s'.events = s.events

theorem Agrees.refl (s : Session) : Agrees s s := ⟨rfl, rfl, rfl, rfl, rfl, rfl, rfl, rfl⟩

theorem Agrees.working {s s' : Session} (h : Agrees s s') : s'.working = s.working := by
  rw [Session.working, Session.working, h.running, h.stuck]

theorem Agrees.refusal? {s s' : Session} (h : Agrees s s') : s'.refusal? = s.refusal? := by
  unfold Session.refusal?
  rw [h.done, h.runState]

theorem start_of_refused {s : Session} (h : s.running = true ∨ s.refusal? ≠ none) : s.start.toOption.getD s = s := by
  cases hs : s.start with
  | error e => rfl
  | ok s' =>
    obtain ⟨hr, hf, -⟩ := start_eq_ok.1 hs
    rcases h with h | h
    · rw [hr] at h
      cases h
    · exact absurd hf h

/-- **Nothing but a halt gets at a program that is not debugged**, once it is played and until it is over. -/
theorem agrees_apply {s : Session} {r : Request} (ht : r.isTransparent = true) (hh : r ≠ .halt)
    (hn : s.noDebug = true) (hp : s.running = true ∨ s.refusal? ≠ none) : Agrees s (r.apply s) := by
  cases r with
  | play =>
    rw [Request.apply, start_of_refused hp]
    exact .refl s
  | pause =>
    rw [Request.apply, pause, hn]
    exact .refl s
  | step kind granularity =>
    rw [Request.apply, armStep, hn]
    exact .refl s
  | terminate =>
    rw [Request.apply, terminate_eq, hn]
    exact .refl s
  | halt => exact absurd rfl hh
  | noDebug => exact ⟨rfl, rfl, hn.symm, rfl, rfl, rfl, rfl, rfl⟩
  | lineBreakpoints | instBreakpoints | stopOnEntry | name => exact ⟨rfl, rfl, rfl, rfl, rfl, rfl, rfl, rfl⟩
  | suppress | setVariable | restartFrame | evaluate | rewind => cases ht

/-! ## Turns of the worker -/

/-- What a turn of the worker can do: the outcome, if the burst ends with it, and the session after it. -/
inductive Section (s : Session) : Option Outcome → Session → Prop
  | givesWay (hr : s.runState ≠ .running) : Section s (some (stoppedOutcome s.runState)) s
  | begins (hr : s.runState = .running) : Section s none { s with stopOnEntry := false }
  | pauses {reason : PauseReason} {entry : Bool} {request : Option StepRequest} (hn : s.noDebug = false) :
    Section s (some (.paused reason)) { s with stopOnEntry := entry, step := request, runState := .paused }
  | ends (hd : s.machine.isDone = true) : Section s (some .finished) { s with done := true, runState := .terminated }
  | next (hs : s.machine.step.1 = none) (hd : s.machine.step.2.isDone = false) :
    Section s none { s with machine := s.machine.step.2 }
  | breaks (hs : s.machine.step.1 = none) (hd : s.machine.step.2.isDone = false) (hn : s.noDebug = false) :
    Section s (some (.paused .breakpoint))
      { s with machine := s.machine.step.2, step := none, runState := .paused }
  | finishes (hs : s.machine.step.1 = none) (hd : s.machine.step.2.isDone = true) :
    Section s (some .finished) { s with machine := s.machine.step.2, done := true, runState := .terminated }
  | excepts {p : FaultReport} (hf : s.machine.failure? = some (.ok p)) (hn : s.noDebug = false) :
    Section s (some (.exception p)) { s with machine := s.machine.step.2, runState := .paused, step := none,
                                             exception := some (p, p.trace s.file) }
  | fails {p : FaultReport} (hf : s.machine.failure? = some (.ok p)) (hn : s.noDebug = true) :
    Section s (some (.failed p)) { s with machine := s.machine.step.2, done := true, runState := .terminated }
  | crashes {a : Abort} (hf : s.machine.failure? = some (.error a)) (ha : a ≠ .deadlock) :
    Section s (some .crashed) { s with machine := s.machine.step.2, runState := .terminated }
  | hangs (hf : s.machine.failure? = some (.error .deadlock)) :
    Section s (some .hung) { s with machine := s.machine.step.2, stuck := true }

theorem section_enter (s : Session) : Section s s.enter.1 s.enter.2 := by
  unfold enter
  split
  · rename_i hr
    exact .givesWay hr
  rename_i hr
  have hrun : s.runState = .running := Decidable.of_not_not hr
  split
  · dsimp only
    split
    · exact .begins hrun
    · rename_i hn
      exact .pauses (Bool.eq_false_iff.2 hn)
  · rename_i he
    have hs : { s with stopOnEntry := false } = s := by rw [← Bool.eq_false_iff.2 he]
    have hb := Section.begins hrun
    rw [hs] at hb
    exact hb

theorem noDebug_of_stepEnds {s : Session} (h : s.stepEnds = true) : s.noDebug = false := by
  obtain ⟨hn, -⟩ := Bool.and_eq_true_iff.1 h
  exact Bool.not_eq_true' _ ▸ hn

theorem section_afterStep {s : Session} (hs : s.machine.step.1 = none) :
    Section s ({ s with machine := s.machine.step.2 } : Session).afterStep.1
      ({ s with machine := s.machine.step.2 } : Session).afterStep.2 := by
  unfold afterStep
  split
  · rename_i hd
    exact .finishes hs hd
  rename_i hd
  have hd' := Bool.eq_false_iff.2 hd
  split
  · rename_i hb
    exact .breaks hs hd' (Bool.not_eq_true' _ ▸ (Bool.and_eq_true_iff.1 hb).1)
  · exact .next hs hd'

theorem section_tick (s : Session) : Section s s.tick.1 s.tick.2 := by
  unfold tick
  split
  · rename_i hr
    exact .givesWay hr
  split
  · rename_i hd
    exact .ends hd
  split
  · rename_i he
    exact .pauses (noDebug_of_stepEnds he)
  cases hs : s.machine.step.1 with
  | none =>
    have ha := section_afterStep hs
    simpa only [hs] using ha
  | some stop =>
    simp only [hs]
    cases hx : s.machine.step.2.explain stop with
    | error a =>
      have hf : s.machine.failure? = some (.error a) := by rw [Machine.failure?, hs, Option.map_some, hx]
      cases a with
      | deadlock => exact .hangs hf
      | badIndex | noRoom => exact .crashes hf nofun
    | ok p =>
      have hf : s.machine.failure? = some (.ok p) := by rw [Machine.failure?, hs, Option.map_some, hx]
      dsimp only
      unfold failed
      split
      · rename_i hn
        exact .fails hf hn
      · rename_i hn
        exact .excepts hf (Bool.eq_false_iff.2 hn)

theorem tick_of_not_running {s : Session} (h : s.runState ≠ .running) :
    s.tick = (some (stoppedOutcome s.runState), s) := if_pos h

theorem enter_of_not_running {s : Session} (h : s.runState ≠ .running) :
    s.enter = (some (stoppedOutcome s.runState), s) := if_pos h

theorem enter_of_noDebug {s : Session} (hr : s.runState = .running) (hn : s.noDebug = true) :
    s.enter = (none, { s with stopOnEntry := false }) := by
  unfold enter
  rw [if_neg (not_not_intro hr)]
  split
  · exact if_pos hn
  · rename_i he
    rw [← Bool.eq_false_iff.2 he]

theorem Section.stuck {s s' : Session} {o : Option Outcome} (h : Section s o s') (ho : o ≠ some .hung) :
    s'.stuck = s.stuck := by
  cases h <;> first | rfl | exact absurd rfl ho

theorem Section.working {s s' : Session} (h : Section s none s') : s'.working = s.working := by cases h <;> rfl

/-- **A turn that does not end the burst has executed an instruction.** -/
theorem tick_none {s s' : Session} (h : s.tick = (none, s')) : s.machine.step.1 = none ∧
    s.machine.step.2.isDone = false ∧ s' = { s with machine := s.machine.step.2 } := by
  unfold tick at h
  split at h
  · cases h
  split at h
  · cases h
  split at h
  · cases h
  cases hs : s.machine.step.1 with
  | none =>
    simp only [hs] at h
    unfold afterStep at h
    split at h
    · cases h
    rename_i hd
    split at h
    · cases h
    · cases h
      exact ⟨rfl, Bool.eq_false_iff.2 hd, rfl⟩
  | some stop =>
    simp only [hs] at h
    split at h <;> cases h

theorem Section.fixed {s s' : Session} {o : Option Outcome} (h : Section s o s') :
    s'.events = s.events ∧ s'.suppressed = s.suppressed ∧ s'.noDebug = s.noDebug ∧ s'.running = s.running := by
  cases h <;> exact ⟨rfl, rfl, rfl, rfl⟩

section Leaves

variable {P : Session → Prop} {Q : Outcome → Session → Prop}

theorem turns_leave (hnext : ∀ {s s' : Session}, P s → Section s none s' → P s')
    (hlast : ∀ {s s' : Session} {o : Outcome}, P s → Section s (some o) s' → Q o s')
    (hspent : ∀ {s : Session}, P s → Q s.crashed.1 s.crashed.2) :
    ∀ (fuel : Nat) {s : Session}, P s → Q (turns fuel s).1 (turns fuel s).2
  | 0, _, h => hspent h
  | fuel + 1, s, h => by
    have hs := s.section_tick
    unfold turns
    cases ht : s.tick with
    | mk o s' =>
      rw [ht] at hs
      cases o with
      | some o => exact hlast h hs
      | none => exact turns_leave hnext hlast hspent fuel (hnext h hs)

/-- **What a burst leaves**, from what holds until its last turn and what that one makes of it. -/
theorem burst_leaves (hnext : ∀ {s s' : Session}, P s → Section s none s' → P s')
    (hlast : ∀ {s s' : Session} {o : Outcome}, P s → Section s (some o) s' → Q o s')
    (hspent : ∀ {s : Session}, P s → Q s.crashed.1 s.crashed.2) {s : Session} (h : P s) : Q s.burst.1 s.burst.2 := by
  have hs := s.section_enter
  unfold burst
  cases he : s.enter with
  | mk o s' =>
    rw [he] at hs
    cases o with
    | some o => exact hlast h hs
    | none => exact turns_leave hnext hlast hspent _ (hnext h hs)

end Leaves

section Conclude

variable (s : Session) (o : Outcome)

@[simp] theorem conclude_machine : (s.conclude o).machine = s.machine := by cases o <;> rfl

@[simp] theorem conclude_done : (s.conclude o).done = s.done := by cases o <;> rfl

@[simp] theorem conclude_runState : (s.conclude o).runState = s.runState := by cases o <;> rfl

@[simp] theorem conclude_exception : (s.conclude o).exception = s.exception := by cases o <;> rfl

@[simp] theorem conclude_noDebug : (s.conclude o).noDebug = s.noDebug := by cases o <;> rfl

@[simp] theorem conclude_stuck : (s.conclude o).stuck = s.stuck := by cases o <;> rfl

@[simp] theorem conclude_suppressed : (s.conclude o).suppressed = s.suppressed := by cases o <;> rfl

@[simp] theorem conclude_refusal? : (s.conclude o).refusal? = s.refusal? := by cases o <;> rfl

@[simp] theorem conclude_events : (s.conclude o).events = s.events := by cases o <;> rfl

theorem conclude_running (h : o ≠ .hung) : (s.conclude o).running = false := by
  cases o <;> first | rfl | exact absurd rfl h

end Conclude

/-- **A session after a request is as it was, or as the request leaves it.** -/
theorem asked_keeps {P : Session → Prop} {s : Session} {r : Request} (h : P s) (ha : P (r.apply s)) :
    P (s.asked r) := by
  unfold asked
  split
  · exact h
  · exact ha

theorem asked_of_not_stuck {s : Session} (h : s.stuck = false) (r : Request) : s.asked r = r.apply s := by
  unfold asked
  rw [h]
  rfl

theorem working_iff {s : Session} : s.working = true ↔ s.running = true ∧ s.stuck = false := by
  rw [working, Bool.and_eq_true, Bool.not_eq_true']

theorem wait_of_working {s : Session} (h : s.working = true) : s.wait = s.work := if_pos h

theorem wait_of_not_working {s : Session} (h : s.working = false) : s.wait = s := if_neg (Bool.eq_false_iff.1 h)

theorem halt_of_not_running {s : Session} (h : s.running = false) : s.halt = s.requestHalt := by
  refine wait_of_not_working ?_
  rw [working, show s.requestHalt.running = false from h, Bool.false_and]

end Session

namespace Desk

/-- The desk after a turn of its worker, given the outcome and the session. -/
def took (d : Desk) : Option Outcome → Session → Desk
  | none, s => { d with session := s, entered := true }
  | some o, s => ⟨s.conclude o, false, d.pending ++ Session.eventsOf o⟩

theorem turn_of_not_working {d : Desk} (h : d.session.working = false) : d.turn = d := if_neg (Bool.eq_false_iff.1 h)

theorem turn_eq {d : Desk} (h : d.session.working = true) :
    d.turn = d.took (if d.entered then d.session.tick else d.session.enter).1
      (if d.entered then d.session.tick else d.session.enter).2 := by
  unfold turn
  rw [if_pos h]
  cases (if d.entered then d.session.tick else d.session.enter) with
  | mk o s => cases o <;> rfl

/-- **A turn of a worker that gets on is one of those listed.** -/
theorem turn_of_working {d : Desk} (h : d.session.working = true) :
    ∃ o s, Session.Section d.session o s ∧ d.turn = d.took o s := by
  refine ⟨_, _, ?_, turn_eq h⟩
  cases d.entered with
  | true => exact d.session.section_tick
  | false => exact d.session.section_enter

theorem log_took {d : Desk} {o : Option Outcome} {s : Session} (h : Session.Section d.session o s) :
    (d.took o s).log = d.log ++ (o.map Session.eventsOf).getD [] := by
  cases o with
  | none => simp only [took, log, h.fixed.1, Option.map_none, Option.getD_none, List.append_nil]
  | some o => simp only [took, log, Session.conclude_events, h.fixed.1, List.append_assoc, Option.map_some,
      Option.getD_some]

theorem log_deliver {d : Desk} (h : d.session.suppressed = false) : d.deliver.log = d.log := by
  unfold deliver
  cases hp : d.pending with
  | nil => rfl
  | cons e rest => simp only [log, Session.emit, h, hp, Bool.false_eq_true, if_false, List.append_assoc,
      List.singleton_append]

theorem deliver_session (d : Desk) : ∃ es, d.deliver.session = { d.session with events := es } := by
  unfold deliver
  cases d.pending with
  | nil => exact ⟨_, rfl⟩
  | cons e rest =>
    unfold Session.emit
    dsimp only
    split
    · exact ⟨_, rfl⟩
    · exact ⟨_, rfl⟩

/-! ## Bursts as schedules -/

theorem exists_turns_eq_turns : ∀ {fuel : Nat} {s : Session} (es : List Event), s.working = true →
    s.machine.budget ≤ fuel → ∃ n, run ⟨s, true, es⟩ (List.replicate n .turn) =
      ⟨(Session.turns fuel s).2.conclude (Session.turns fuel s).1, false,
        es ++ Session.eventsOf (Session.turns fuel s).1⟩
  | 0, _, _, _, hb => absurd hb (Nat.not_succ_le_zero _)
  | fuel + 1, s, es, hr, hb => by
    have hturn : run ⟨s, true, es⟩ [.turn] = took ⟨s, true, es⟩ s.tick.1 s.tick.2 := turn_eq hr
    unfold Session.turns
    cases ht : s.tick with
    | mk o s' =>
      rw [ht] at hturn
      cases o with
      | some o => exact ⟨1, hturn⟩
      | none =>
        obtain ⟨hstep, -, rfl⟩ := Session.tick_none ht
        have hb' : s.machine.step.2.budget ≤ fuel :=
          Nat.le_of_lt_succ (Nat.lt_of_lt_of_le (Machine.budget_of_succeeds hstep) hb)
        obtain ⟨n, hn⟩ := exists_turns_eq_turns (s := { s with machine := s.machine.step.2 }) es hr hb'
        refine ⟨n + 1, ?_⟩
        rw [← hn, Nat.add_comm n 1, ← List.replicate_append_replicate, run_append]
        exact congrArg (fun d => run d (List.replicate n .turn)) hturn

/-- **A burst that nobody interrupts is the turns of its worker.** -/
theorem exists_turns_eq_burst {s : Session} (hr : s.working = true) : ∃ n, (of s).run (List.replicate n .turn) =
    ⟨s.burst.2.conclude s.burst.1, false, Session.eventsOf s.burst.1⟩ := by
  have hturn : (of s).run [.turn] = (of s).took s.enter.1 s.enter.2 := turn_eq hr
  unfold Session.burst
  cases he : s.enter with
  | mk o s' =>
    rw [he] at hturn
    cases o with
    | some o => exact ⟨1, hturn⟩
    | none =>
      have hsec := s.section_enter
      rw [he] at hsec
      obtain ⟨n, hn⟩ := exists_turns_eq_turns [] (hsec.working.trans hr) (Nat.le_succ s'.machine.budget)
      refine ⟨n + 1, ?_⟩
      rw [Nat.add_comm n 1, ← List.replicate_append_replicate, run_append]
      exact (congrArg (fun d => run d (List.replicate n .turn)) hturn).trans hn

theorem run_deliver : ∀ (es : List Event) (s : Session),
    run ⟨s, false, es⟩ (List.replicate es.length .deliver) = of (es.foldl Session.emit s)
  | [], _ => rfl
  | e :: es, s => run_deliver es (s.emit e)

/-- **All that a worker does by itself is a schedule.** -/
theorem exists_run_eq_work {s : Session} (hr : s.working = true) :
    ∃ acts, (∀ a ∈ acts, a = .turn ∨ a = .deliver) ∧ (of s).run acts = of s.work := by
  obtain ⟨n, hn⟩ := exists_turns_eq_burst hr
  refine ⟨List.replicate n .turn ++ List.replicate (Session.eventsOf s.burst.1).length .deliver, ?_, ?_⟩
  · intro a ha
    rcases List.mem_append.1 ha with ha | ha
    · exact .inl (List.eq_of_mem_replicate ha)
    · exact .inr (List.eq_of_mem_replicate ha)
  · rw [run_append, hn]
    exact run_deliver _ _

/-- A program that calls a procedure once, two instructions a line. -/
def callOnce : Image where
  code := #[⟨⟨1, 1⟩, .call 0 1 0⟩, ⟨⟨1, 1⟩, .finish⟩, ⟨⟨2, 1⟩, .begin 1⟩, ⟨⟨2, 1⟩, .litBool true⟩, ⟨⟨3, 1⟩, .pop⟩,
    ⟨⟨3, 1⟩, .finish⟩]
  labels := #[⟨"sub", 2⟩]
  strings := #[]
  classes := #[]
  scopes := #[.global [], .callable "sub" [] []]
  globalScope := 0

/-- Its session, with a limit on instructions and nothing to read. -/
def callOnceSession (max : Nat) : Session where
  machine := ⟨callOnce, { maxInstructions := max }, 0, [.fresh 0 0 0 [] 0], 0, none, [], [],
    { console := ⟨.script [], [], ""⟩, random := .ofSeed 0 }⟩
  table := .ofLines [1, 1, 2, 2, 3, 3]

theorem create?_callOnce (max : Nat) : Session.create? callOnce { maxInstructions := max }
    (callOnceSession max).machine.world = some (callOnceSession max) := rfl

end Desk

end PseudoVm
