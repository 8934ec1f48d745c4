import PseudoVm.Proofs.Session.Lifecycle
/-!
# Session.PendingStep: which pauses give the pending step up

A burst that pauses for a step, at a breakpoint or on a fault gives the pending step up.  One that pauses at entry or
because it was asked to leaves the step as it is (`Session.step_tick_of_pause`, `Session.enter_of_pause`), and a later
burst may still end it.  Where no step is pending, none ends until a new one is armed (`Desk.unarmed_run`).
-/
namespace PseudoVm

namespace Outcome

/-- Whether a burst that ends so can be played on. -/
def isPause : Outcome → Bool
  | .paused _ | .exception _ => true
  | _ => false

/-- Whether a pause of this kind gives the pending step up. -/
def givesStepUp : Outcome → Bool
  | .paused .entry | .paused .pause => false
  | _ => true

theorem eq_of_isPause {o : Outcome} (h : o.isPause = true) : (∃ reason, o = .paused reason) ∨ ∃ p, o = .exception p := by
  cases o with
  | paused reason => exact .inl ⟨reason, rfl⟩
  | exception p => exact .inr ⟨p, rfl⟩
  | failed | finished | terminated | halted | crashed | hung => cases h

end Outcome

/-- Whether an act arms a step. -/
def Act.armsStep : Act → Bool
  | .ask (.step ..) => true
  | _ => false

namespace Session

variable {s : Session} {o : Outcome}

/-! ## One section -/

theorem stoppedOutcome_of_isPause {r : RunState} (hp : (stoppedOutcome r).isPause = true) :
    stoppedOutcome r = .paused .pause := by
  cases r with
  | running | paused => rfl
  | halted | terminated => cases hp

theorem step_enter (s : Session) : s.enter.2.step = s.step := by
  unfold enter
  split
  · rfl
  split
  · dsimp only
    split <;> rfl
  · rfl

theorem enter_of_pause (h : s.enter.1 = some o) (hp : o.isPause = true) :
    o = .paused .entry ∨ o = .paused .pause := by
  unfold enter at h
  split at h
  · cases h
    exact .inr (stoppedOutcome_of_isPause hp)
  split at h
  · dsimp only at h
    split at h
    · cases h
    · cases h
      exact .inl rfl
  · cases h

/-- **A turn that ends the burst of a program that is debugged ends it at a stop point.** -/
theorem tick_eq_stopAt (hr : s.runState = .running) (hn : s.noDebug = false) (hd : s.machine.isDone = false)
    (h : s.tick.1 = some o) : ∃ n point, s.stopPoint? n = some point ∧ s.tick = ended (s.stopAt n point) := by
  have ht := tick_eq hr hn hd
  cases h0 : s.stopPoint? 0 with
  | some point =>
    rw [h0] at ht
    exact ⟨0, point, h0, ht⟩
  | none =>
    rw [h0] at ht
    dsimp only at ht
    rw [afterStep_advanced hn] at ht
    split at ht
    · rename_i hdone
      exact ⟨1, .finished, stopPoint?_one_of_isDone hdone, ht⟩
    rename_i hdone
    split at ht
    · rename_i hb
      exact ⟨1, .breakpoint, stopPoint?_one_of_breaksAt hdone hb, ht⟩
    · rw [ht] at h
      cases h

theorem step_of_stopPoint?_eq_step {n : Nat} (h : s.stopPoint? n = some .step) : s.step ≠ none := by
  intro hnone
  unfold stopPoint? at h
  rw [hnone] at h
  dsimp only at h
  split at h
  · cases h
  split at h
  · cases h
  rw [Option.any_none, if_neg Bool.false_ne_true] at h
  cases hs : (s.machine.stepped n).step.1 <;> rw [hs] at h <;> cases h

theorem eq_step_of_stopAt {n : Nat} {point : StopPoint} (h : (s.stopAt n point).1 = .paused .step) : point = .step := by
  cases point with
  | step => rfl
  | finished | breakpoint => cases h
  | failure stop =>
    simp only [stopAt] at h
    split at h
    · cases h
    · rename_i a _
      cases a <;> cases h

theorem givesStepUp_stopAt (s : Session) (n : Nat) (point : StopPoint) : (s.stopAt n point).1.givesStepUp = true := by
  cases point with
  | finished | breakpoint | step => rfl
  | failure stop =>
    simp only [stopAt]
    split
    · rfl
    · rename_i a _
      cases a <;> rfl

theorem Section.step {s' : Session} {o : Option Outcome} (h : Section s o s')
    (hp : ∀ p, o = some p → p.isPause = false) : s'.step = s.step := by
  cases h with
  | pauses | breaks | excepts => cases hp _ rfl
  | givesWay | begins | ends | next | finishes | fails | crashes | hangs => rfl

theorem tick_of_pause (hr : s.runState = .running) (h : s.tick.1 = some o) (hp : o.isPause = true) :
    ∃ n point, s.stopPoint? n = some point ∧ s.tick = ended (s.stopAt n point) := by
  have hsec := s.section_tick
  rw [h] at hsec
  have hn : s.noDebug = false := by
    generalize s.tick.2 = s' at hsec
    cases hsec with
    | givesWay hn => exact absurd hr hn
    | pauses hn | breaks _ _ hn | excepts _ hn => exact hn
    | ends | finishes | fails | crashes | hangs => cases hp
  have hd : s.machine.isDone = false := by
    refine Bool.eq_false_iff.2 fun hd => ?_
    unfold tick at h
    rw [if_neg (not_not_intro hr), if_pos hd] at h
    cases h
    cases hp
  exact tick_eq_stopAt hr hn hd h

/-- **A turn that pauses gives the step up, unless it was asked to pause.** -/
theorem step_tick_of_pause (h : s.tick.1 = some o) (hp : o.isPause = true) :
    s.tick.2.step = if o.givesStepUp then none else s.step := by
  by_cases hr : s.runState = .running
  · obtain ⟨n, point, -, ht⟩ := tick_of_pause hr h hp
    have ho : (s.stopAt n point).1 = o := by
      rw [ht] at h
      exact Option.some.inj h
    have hclear := s.givesStepUp_stopAt n point
    have hstep := s.step_stopAt n point
    rw [ho] at hclear hstep
    rw [hclear, if_pos rfl, ht]
    exact hstep (Outcome.eq_of_isPause hp)
  · rw [tick_of_not_running hr] at h ⊢
    cases h
    rw [stoppedOutcome_of_isPause hp]
    rfl

/-- **Where no step is pending, a turn ends none and arms none.** -/
theorem tick_of_step_eq_none (h : s.step = none) : s.tick.2.step = none ∧ s.tick.1 ≠ some (.paused .step) := by
  constructor
  · by_cases hp : ∃ o, s.tick.1 = some o ∧ o.isPause = true
    · obtain ⟨o, ho, hpause⟩ := hp
      rw [step_tick_of_pause ho hpause, h, ite_self]
    · rw [s.section_tick.step fun p hs => Bool.eq_false_iff.2 fun hpause => hp ⟨p, hs, hpause⟩]
      exact h
  · intro ho
    by_cases hr : s.runState = .running
    · obtain ⟨n, point, hat, ht⟩ := tick_of_pause hr ho rfl
      rw [ht] at ho
      rw [eq_step_of_stopAt (Option.some.inj ho)] at hat
      exact step_of_stopPoint?_eq_step hat h
    · rw [tick_of_not_running hr] at ho
      cases hs : s.runState <;> rw [hs] at ho <;> cases ho

theorem enter_ne_step (s : Session) : s.enter.1 ≠ some (.paused .step) := by
  intro h
  rcases enter_of_pause h rfl with ho | ho <;> cases ho

theorem step_apply (h : s.step = none) {r : Request} (hr : (Act.ask r).armsStep = false) : (r.apply s).step = none := by
  cases r with
  | step => cases hr
  | play =>
    rw [Request.apply]
    cases hst : s.start with
    | error e => exact h
    | ok s' =>
      obtain ⟨-, -, rfl⟩ := start_eq_ok.1 hst
      exact h
  | pause =>
    rw [Request.apply, pause]
    split <;> exact h
  | terminate =>
    rw [Request.apply, terminate_eq]
    split
    · exact h
    split <;> rfl
  | setVariable id which v =>
    rw [Request.apply, setVariable]
    split
    · cases s.machine.assign (which.cell (id - 1)) v <;> exact h
    · exact h
  | restartFrame id =>
    rw [Request.apply, restartFrame]
    split
    · exact h
    split
    · exact h
    cases s.machine.restartFrame? id with
    | none => exact h
    | some m => rfl
  | evaluate id code =>
    rw [Request.apply, evaluate]
    split <;> exact h
  | halt | rewind => rfl
  | lineBreakpoints | instBreakpoints | stopOnEntry | noDebug | name | suppress => exact h

theorem step_conclude_of_pause (hp : o.isPause = true) : (s.conclude o).step = s.step := by
  cases o with
  | paused | exception => rfl
  | failed | finished | terminated | halted | crashed | hung => cases hp

theorem step_conclude_of_none (h : s.step = none) : (s.conclude o).step = none := by
  cases o <;> first | rfl | exact h

end Session

namespace Desk

variable {d : Desk}

/-- How the burst ends with the next turn of the worker, if it does. -/
def outcome? (d : Desk) : Option Outcome :=
  if d.session.working then (if d.entered then d.session.tick else d.session.enter).1 else none

/-! ## Schedules -/

/-- **A turn that pauses gives the pending step up exactly if it pauses for a step, at a breakpoint or on a fault.** -/
theorem step_turn_of_pause {o : Outcome} (ho : d.outcome? = some o) (hp : o.isPause = true) :
    d.turn.session.step = if o.givesStepUp then none else d.session.step := by
  unfold outcome? at ho
  split at ho
  · rename_i hr
    rw [turn_eq hr, ho]
    show ((if d.entered then d.session.tick else d.session.enter).2.conclude o).step = _
    rw [Session.step_conclude_of_pause hp]
    cases he : d.entered with
    | true =>
      rw [he] at ho
      exact Session.step_tick_of_pause ho hp
    | false =>
      rw [he] at ho
      have hkept := d.session.step_enter
      rcases Session.enter_of_pause ho hp with rfl | rfl <;> exact hkept
  · cases ho

/-- No step is pending, and none ends with the next turn. -/
structure Unarmed (d : Desk) : Prop where
  step : d.session.step = none
  outcome : d.outcome? ≠ some (.paused .step)

theorem unarmed_of_step (h : d.session.step = none) : d.Unarmed := by
  refine ⟨h, fun ho => ?_⟩
  unfold outcome? at ho
  split at ho
  · cases he : d.entered with
    | true =>
      rw [he] at ho
      exact (Session.tick_of_step_eq_none h).2 ho
    | false =>
      rw [he] at ho
      exact d.session.enter_ne_step ho
  · cases ho

theorem step_turn_of_none (h : d.session.step = none) : d.turn.session.step = none := by
  cases hr : d.session.working with
  | false => exact (congrArg (·.session.step) (turn_of_not_working hr)).trans h
  | true =>
    rw [turn_eq hr]
    have hs : (if d.entered then d.session.tick else d.session.enter).2.step = none := by
      cases d.entered with
      | true => exact (Session.tick_of_step_eq_none h).1
      | false => exact d.session.step_enter.trans h
    cases ho : (if d.entered then d.session.tick else d.session.enter).1 with
    | none => exact hs
    | some o => exact Session.step_conclude_of_none hs

/-- **Where no step is pending, none ends until one is armed.** -/
theorem unarmed_run {later : List Act} (h : d.session.step = none) (hl : ∀ a ∈ later, a.armsStep = false) :
    (d.run later).Unarmed := by
  refine @run_keeps Unarmed later d (fun d a ha hd => unarmed_of_step ?_) (unarmed_of_step h)
  cases a with
  | ask r => exact Session.asked_keeps (P := fun s => s.step = none) hd.step (Session.step_apply hd.step (hl _ ha))
  | turn => exact step_turn_of_none hd.step
  | deliver =>
    obtain ⟨es, he⟩ := d.deliver_session
    rw [perform, he]
    exact hd.step

/-- **Which pauses leave no step pending.**  Whatever has happened at a session, a turn of its worker ends the burst by
pausing.  No step is pending then exactly if the pause is for a step, at a breakpoint or on a fault, or none was pending
before; and if none is, no burst stops for a step, whatever happens next, until a new one is armed. -/
theorem pause_leaves_no_step_iff (s₀ : Session) (history : List Act) {o : Outcome}
    (ho : ((of s₀).run history).outcome? = some o) (hp : o.isPause = true) :
    let before := (of s₀).run history
    (before.turn.session.step = none ↔ o.givesStepUp = true ∨ before.session.step = none) ∧
    (before.turn.session.step = none → ∀ later : List Act, (∀ a ∈ later, a.armsStep = false) →
      (before.turn.run later).session.step = none ∧ (before.turn.run later).outcome? ≠ some (.paused .step)) := by
  intro before
  have hstep : before.turn.session.step = if o.givesStepUp then none else before.session.step :=
    step_turn_of_pause ho hp
  refine ⟨?_, fun hnone later hl => ?_⟩
  · rw [hstep]
    cases o.givesStepUp <;> simp
  · have hu := unarmed_run hnone hl
    exact ⟨hu.step, hu.outcome⟩

/-- A step that a burst gives up at a breakpoint, where the next one ends for no step. -/
theorem pause_leaves_no_step_iff_callOnce :
    let history : List Act := [.ask (.instBreakpoints [4]), .ask (.step .out .line), .ask .play, .turn, .turn, .turn]
    let before := (of (callOnceSession 100)).run history
    before.outcome? = some (.paused .breakpoint) ∧ before.session.step = some ⟨.out, .line, ⟨0, 1, 1⟩⟩ ∧
    before.turn.session.step = none ∧
    (before.turn.run [.deliver, .ask .play, .turn, .turn, .turn]).outcome? = some .finished ∧
    (before.turn.run [.deliver, .ask .play, .turn, .turn, .turn]).outcome? ≠ some (.paused .step) := by
  intro history before
  have ho : before.outcome? = some (.paused .breakpoint) := by decide
  obtain ⟨hiff, hnone⟩ := pause_leaves_no_step_iff (callOnceSession 100) history ho rfl
  have hclear := hiff.2 (.inl rfl)
  exact ⟨ho, by decide, hclear, by decide, (hnone hclear _ (by decide)).2⟩

end Desk

namespace Session

/-- **A pause at entry leaves the step armed**, and the next play stops for it though nothing was armed since. -/
theorem entry_leaves_step :
    let paused := (Desk.callOnceSession 100).through [.stopOnEntry, .step .into .line, .play]
    paused.events = [.paused .entry] ∧ paused.step = some ⟨.into, .line, ⟨0, 1, 1⟩⟩ ∧
    (paused.through [.play]).events = [.paused .entry, .paused .step] := by
  decide

end Session

end PseudoVm
