import PseudoVm.Proofs.Machine.StopReasons
import PseudoVm.Proofs.Session.Schedule
/-!
# Session.StopPoint: where a burst stops

A burst of a program that is debugged stops at the first of its stop points, which are read off the machines that
successive steps lead to (`Session.stopPoint?`): the end of the program and breakpoints after an instruction, the end of
the pending step and a failure before one.  The turns of the worker find this point whatever the fuel, since every turn
that does not end the burst counts an instruction against the limit (`Session.turns_eq_stopAt`).

A fault is reported with the frames it happened in.  The worker waits for ever if one of them cannot be shown, so that
the burst does not end there (`Desk.fault_unreported`).
-/
namespace PseudoVm

/-- What a burst of a program that is debugged stops for. -/
inductive StopPoint
  | finished
  | breakpoint
  | step
  | failure (stop : Stop)

namespace Session

/-- What a burst stops for after `n` instructions, if it does.  A breakpoint that it starts on does not stop it. -/
def stopPoint? (s : Session) (n : Nat) : Option StopPoint :=
  let m := s.machine.stepped n
  if 1 ≤ n ∧ m.isDone = true then some .finished
  else if 1 ≤ n ∧ s.breaksAt m.pc = true then some .breakpoint
  else if s.step.any (·.shouldPause ⟨m.pc, s.table.lineAt m.pc, m.depth⟩) then some .step
  else m.step.1.map .failure

/-- How a burst ends that stops after `n` instructions.  A failing one leaves the machine as it is then, and breaks off
if it does not come to a fault or its trace cannot be shown. -/
def stopAt (s : Session) (n : Nat) : StopPoint → Outcome × Session
  | .finished => (.finished, { s with machine := s.machine.stepped n, done := true, runState := .terminated })
  | .breakpoint =>
    (.paused .breakpoint, { s with machine := s.machine.stepped n, step := none, runState := .paused })
  | .step => (.paused .step, { s with machine := s.machine.stepped n, step := none, runState := .paused })
  | .failure stop =>
    match (s.machine.stepped (n + 1)).explain stop with
    | .ok p => (.exception p, { s with machine := s.machine.stepped (n + 1), runState := .paused, step := none,
                                       exception := some (p, p.trace s.file) })
    | .error a => ({ s with machine := s.machine.stepped (n + 1) } : Session).brokenOff a

variable {s : Session}

/-! ## One turn -/

theorem stopPoint?_zero (s : Session) :
    s.stopPoint? 0 = if s.step.any (·.shouldPause s.place) then some .step else s.machine.step.1.map .failure := rfl

/-- The session after an instruction. -/
def advanced (s : Session) : Session := { s with machine := s.machine.step.2 }

theorem stopAt_succ (s : Session) (n : Nat) (point : StopPoint) : s.stopAt (n + 1) point = s.advanced.stopAt n point := by
  cases point with
  | finished | breakpoint | step => simp only [stopAt, Machine.stepped_succ]; rfl
  | failure stop =>
    simp only [stopAt, Machine.stepped_succ s.machine (n + 1)]
    rfl

/-- **The stop points after the first instruction are those of a burst that starts there**, unless it ends there. -/
theorem stopPoint?_succ (hd : s.advanced.machine.isDone = false) (hb : s.breaksAt s.advanced.machine.pc = false)
    (n : Nat) : s.stopPoint? (n + 1) = s.advanced.stopPoint? n := by
  have hm : s.machine.stepped (n + 1) = s.advanced.machine.stepped n := s.machine.stepped_succ n
  unfold stopPoint?
  rw [hm]
  cases n with
  | zero =>
    have hd' : (s.advanced.machine.stepped 0).isDone = false := hd
    have hb' : s.breaksAt (s.advanced.machine.stepped 0).pc = false := hb
    simp only [hd', hb', Bool.false_eq_true, and_false, if_false]
    rfl
  | succ n =>
    simp only [Nat.le_add_left, true_and]
    rfl

/-- **A turn stops where there is a stop point**, and else executes an instruction. -/
theorem tick_eq (hr : s.runState = .running) (hn : s.noDebug = false) (hd : s.machine.isDone = false) :
    s.tick = match s.stopPoint? 0 with
      | some point => ended (s.stopAt 0 point)
      | none => s.advanced.afterStep := by
  have hends : s.stepEnds = s.step.any (·.shouldPause s.place) := by
    unfold stepEnds
    rw [hn]
    rfl
  unfold tick
  rw [if_neg (not_not_intro hr), if_neg (Bool.eq_false_iff.1 hd), stopPoint?_zero, hends]
  split
  · rfl
  · cases hs : s.machine.step.1 with
    | none => simp only [hs]; rfl
    | some stop =>
      simp only [hs]
      have hstep : s.machine.stepped 1 = s.machine.step.2 := rfl
      simp only [Option.map_some, stopAt, hstep]
      cases s.machine.step.2.explain stop with
      | error a => rfl
      | ok p => simp only [failed, hn]; rfl

theorem afterStep_advanced (hn : s.noDebug = false) : s.advanced.afterStep =
    if s.advanced.machine.isDone then ended (s.stopAt 1 .finished)
    else if s.breaksAt s.advanced.machine.pc then ended (s.stopAt 1 .breakpoint)
    else (none, s.advanced) := by
  have hbreak : (!s.advanced.noDebug && s.advanced.breaksAt s.advanced.machine.pc) =
      s.breaksAt s.advanced.machine.pc := by
    rw [show s.advanced.noDebug = false from hn]
    rfl
  unfold afterStep
  rw [hbreak]
  rfl

theorem stopPoint?_one_of_isDone (hd : s.advanced.machine.isDone = true) : s.stopPoint? 1 = some .finished :=
  if_pos ⟨Nat.le_refl 1, hd⟩

theorem stopPoint?_one_of_breaksAt (hd : ¬ s.advanced.machine.isDone = true)
    (hb : s.breaksAt s.advanced.machine.pc = true) : s.stopPoint? 1 = some .breakpoint := by
  unfold stopPoint?
  rw [if_neg fun h => hd h.2]
  exact if_pos ⟨Nat.le_refl 1, hb⟩

theorem step_of_stopPoint?_zero (h : s.stopPoint? 0 = none) : s.machine.step.1 = none := by
  rw [stopPoint?_zero] at h
  split at h
  · cases h
  · exact Option.map_eq_none_iff.1 h

/-! ## A whole burst -/

/-- **The turns of the worker lead to the first stop point.** -/
theorem turns_eq_stopAt : ∀ {fuel : Nat} {s : Session}, s.runState = .running → s.noDebug = false →
    s.machine.isDone = false → s.machine.budget ≤ fuel →
    ∃ n point, (∀ j, j < n → s.stopPoint? j = none) ∧ s.stopPoint? n = some point ∧ turns fuel s = s.stopAt n point
  | 0, s, _, _, _, hb => absurd hb (Nat.not_succ_le_zero _)
  | fuel + 1, s, hr, hn, hd, hb => by
    unfold turns
    rw [tick_eq hr hn hd]
    cases h0 : s.stopPoint? 0 with
    | some point => exact ⟨0, point, fun j hj => absurd hj (Nat.not_lt_zero j), h0, rfl⟩
    | none =>
      have hfirst : ∀ j, j < 1 → s.stopPoint? j = none := by
        intro j hj
        rw [Nat.lt_one_iff.1 hj]
        exact h0
      have hstep := step_of_stopPoint?_zero h0
      rw [afterStep_advanced hn]
      by_cases hdone : s.advanced.machine.isDone = true
      · refine ⟨1, .finished, hfirst, stopPoint?_one_of_isDone hdone, ?_⟩
        rw [if_pos hdone]
        rfl
      by_cases hbreak : s.breaksAt s.advanced.machine.pc = true
      · refine ⟨1, .breakpoint, hfirst, stopPoint?_one_of_breaksAt hdone hbreak, ?_⟩
        rw [if_neg hdone, if_pos hbreak]
        rfl
      have hd' := Bool.eq_false_iff.2 hdone
      have hb' : s.advanced.machine.budget ≤ fuel :=
        Nat.le_of_lt_succ (Nat.lt_of_lt_of_le (Machine.budget_of_succeeds hstep) hb)
      obtain ⟨n, point, hbefore, hat, hturns⟩ := turns_eq_stopAt (s := s.advanced) hr hn hd' hb'
      have hsucc := stopPoint?_succ hd' (Bool.eq_false_iff.2 hbreak)
      refine ⟨n + 1, point, fun j hj => ?_, (hsucc n).trans hat, ?_⟩
      · cases j with
        | zero => exact h0
        | succ j => exact (hsucc j).trans (hbefore j (Nat.lt_of_succ_lt_succ hj))
      · rw [if_neg hdone, if_neg hbreak, stopAt_succ]
        exact hturns

theorem of_stopPoint?_eq_none {n : Nat} (h : s.stopPoint? n = none) :
    (s.machine.stepped n).step.1 = none ∧ (1 ≤ n → s.breaksAt (s.machine.stepped n).pc = false) := by
  unfold stopPoint? at h
  dsimp only at h
  split at h
  · cases h
  split at h
  · cases h
  rename_i hb
  split at h
  · cases h
  exact ⟨Option.map_eq_none_iff.1 h, fun hn => Bool.eq_false_iff.2 fun hbreak => hb ⟨hn, hbreak⟩⟩

theorem of_stopPoint?_eq_failure {n : Nat} {stop : Stop} (h : s.stopPoint? n = some (.failure stop)) :
    (s.machine.stepped n).step.1 = some stop := by
  unfold stopPoint? at h
  dsimp only at h
  split at h
  · cases h
  split at h
  · cases h
  split at h
  · cases h
  obtain ⟨stop', hs, hstop⟩ := Option.map_eq_some_iff.1 h
  cases hstop
  exact hs

/-- **A burst leads to the first stop point.** -/
theorem burst_eq_stopAt (hr : s.runState = .running) (hn : s.noDebug = false) (he : s.stopOnEntry = false)
    (hd : s.machine.isDone = false) : ∃ n point, (∀ j, j < n → s.stopPoint? j = none) ∧
      s.stopPoint? n = some point ∧ s.burst = s.stopAt n point := by
  obtain ⟨n, point, hbefore, hat, hturns⟩ := turns_eq_stopAt hr hn hd (Nat.le_succ s.machine.budget)
  refine ⟨n, point, hbefore, hat, ?_⟩
  unfold burst enter
  rw [if_neg (not_not_intro hr), he]
  exact hturns

/-- **No step is pending where a burst pauses.** -/
theorem step_stopAt (s : Session) (n : Nat) (point : StopPoint)
    (h : (∃ reason, (s.stopAt n point).1 = .paused reason) ∨ ∃ p, (s.stopAt n point).1 = .exception p) :
    (s.stopAt n point).2.step = none := by
  cases point with
  | finished => obtain ⟨_, h⟩ | ⟨_, h⟩ := h <;> cases h
  | breakpoint | step => rfl
  | failure stop =>
    simp only [stopAt] at h ⊢
    cases hx : (s.machine.stepped (n + 1)).explain stop with
    | ok p => rfl
    | error a =>
      rw [hx] at h
      cases a <;> obtain ⟨_, h⟩ | ⟨_, h⟩ := h <;> cases h

/-- **A fault that stops a burst is reported where it happened**, if the frames can be shown. -/
theorem exception_stopAt (hn : s.machine.Named) {n : Nat} {f : Fault}
    (h : s.stopPoint? n = some (.failure (.fault f))) (hu : (s.machine.stepped n).Showable) :
    ∃ p, (s.stopAt n (.failure (.fault f))).1 = .exception p ∧ p.fault = f ∧ p.pc = (s.machine.stepped n).pc := by
  have hs := of_stopPoint?_eq_failure h
  obtain ⟨p, hp, hf⟩ := Machine.exists_failure (hn.stepped n) hu hs
  have hreport : (s.machine.stepped (n + 1)).report f = .ok p := by
    rw [Machine.failure?, hs] at hp
    exact Option.some.inj hp
  have hexplain : (s.machine.stepped (n + 1)).explain (.fault f) = .ok p := hreport
  refine ⟨p, ?_, hf, (Machine.report_eq_ok hreport).2.trans (Machine.fixed_of_fails hs).1⟩
  rw [stopAt, hexplain]

/-! ## Sessions along schedules -/

/-- A session whose frames can be named, and which knows when its program has ended. -/
structure Orderly (s : Session) : Prop where
  named : s.machine.Named
  done : s.machine.isDone = true → s.done = true

namespace Orderly

theorem with_machine (h : s.Orderly) {s' : Session} (hm : s.machine.Steady s'.machine) (hd : s'.done = s.done) :
    s'.Orderly := by
  refine ⟨hm.named h.named, fun hdone => hd.trans (h.done ?_)⟩
  rw [← hdone]
  exact hm.isDone.symm

theorem setVariable (h : s.Orderly) (id : Nat) (which : Variable) (v : Value) :
    ((s.setVariable id which v).toOption.getD s).Orderly := by
  unfold Session.setVariable
  split
  · cases ha : s.machine.assign (which.cell (id - 1)) v with
    | error f => exact h
    | ok m => exact h.with_machine (Machine.steady_assign ha) rfl
  · exact h

theorem restartFrame (h : s.Orderly) (id : Nat) : ((s.restartFrame id).toOption.getD s).Orderly := by
  unfold Session.restartFrame
  split
  · exact h
  split
  · exact h
  cases hr : s.machine.restartFrame? id with
  | none => exact h
  | some m =>
    obtain ⟨top, rest, -, hst⟩ := Machine.restartFrame?_eq_some hr
    refine ⟨h.named.restartFrame? hr, fun hdone => ?_⟩
    have hnot : m.isDone = false := hst.isDone
    rw [show m.isDone = true from hdone] at hnot
    cases hnot

theorem evaluate (h : s.Orderly) (id : Nat) (code : List Instruction) : (s.evaluate id code).2.Orderly := by
  unfold Session.evaluate
  split
  · refine h.with_machine ?_ rfl
    show s.machine.Steady (s.machine.evaluate id code).2
    unfold Machine.evaluate
    split
    · exact .refl _
    · exact .of_stack_eq rfl rfl rfl rfl rfl rfl rfl
  · exact h

theorem rewound (h : s.Orderly) : s.rewound.Orderly := by
  refine ⟨h.named.rewind, fun hdone => ?_⟩
  obtain ⟨g, hg⟩ := Option.isSome_iff_exists.1 h.named.global
  have hnot : s.machine.rewind.isDone = false := by
    rw [s.machine.steady_rewind.isDone]
    simp only [Machine.isDone, Machine.bottom?, hg]
    rfl
  rw [show s.machine.rewind.isDone = true from hdone] at hnot
  cases hnot

theorem apply (h : s.Orderly) (r : Request) : (r.apply s).Orderly := by
  cases ht : r.isTransparent with
  | true =>
    have hc := controls_apply ht s
    exact ⟨hc.machine ▸ h.named, fun hdone => hc.done.trans (h.done (hc.machine ▸ hdone))⟩
  | false =>
    cases r with
    | suppress on => exact ⟨h.named, h.done⟩
    | setVariable id which v => exact h.setVariable id which v
    | restartFrame id => exact h.restartFrame id
    | evaluate id code => exact h.evaluate id code
    | rewind => exact h.rewound
    | play | pause | step | lineBreakpoints | instBreakpoints | stopOnEntry | noDebug | name | halt | terminate =>
      cases ht

theorem turn (h : s.Orderly) {o : Option Outcome} {s' : Session} (hs : s.Section o s') : s'.Orderly := by
  have hfail : ∀ {r}, s.machine.failure? = some r → s.machine.step.2.isDone = true → s.done = true := by
    intro r hf hdone
    exact h.done ((Machine.isDone_of_failure hf).symm.trans hdone)
  cases hs with
  | givesWay | begins | pauses => exact ⟨h.named, h.done⟩
  | ends => exact ⟨h.named, fun _ => rfl⟩
  | next _ hd | breaks _ hd => exact ⟨h.named.step, fun hdone => absurd hdone (Bool.eq_false_iff.1 hd)⟩
  | finishes => exact ⟨h.named.step, fun _ => rfl⟩
  | excepts hf | crashes hf | hangs hf => exact ⟨h.named.step, hfail hf⟩
  | fails => exact ⟨h.named.step, fun _ => rfl⟩

end Orderly

end Session

namespace Desk

theorem orderly_perform {d : Desk} (h : d.session.Orderly) (a : Act) : (d.perform a).session.Orderly := by
  cases a with
  | ask r => exact Session.asked_keeps h (h.apply r)
  | deliver =>
    obtain ⟨es, he⟩ := d.deliver_session
    rw [perform, he]
    exact ⟨h.named, h.done⟩
  | turn =>
    rw [perform]
    cases hr : d.session.working with
    | false => exact (turn_of_not_working hr).symm ▸ h
    | true =>
      obtain ⟨o, s, hs, hturn⟩ := turn_of_working hr
      have hs' := h.turn hs
      rw [hturn]
      cases o with
      | none => exact hs'
      | some o => exact hs'.with_machine (s.conclude_machine o ▸ .refl _) (s.conclude_done o)

theorem orderly_run {image : Image} {limits : Limits} {world : World} {s₀ : Session}
    (h₀ : Session.create? image limits world = some s₀) (acts : List Act) : ((of s₀).run acts).session.Orderly := by
  obtain ⟨hm, -⟩ := Session.create?_eq h₀
  refine @run_keeps (fun d => d.session.Orderly) acts (of s₀) (fun d a _ h => orderly_perform h a) ?_
  exact ⟨Machine.named_create? hm, fun hdone => absurd hdone (Bool.eq_false_iff.1 (Machine.isDone_create? hm))⟩

/-- **A burst stops at the first stop point.**  A session has come about by any schedule, has just been played and is
debugged, no pause at entry is asked for, and any breakpoints and any step are set.  Then its burst executes as many
instructions as lead to the first stop point and ends as that point says; no breakpoint is passed, no step is pending
where the burst pauses, and a fault is reported where it happened, if the frames that are live there can be shown. -/
theorem burst_stops_first {image : Image} {limits : Limits} {world : World} {s₀ played : Session}
    (h₀ : Session.create? image limits world = some s₀) (acts : List Act)
    (hp : ((of s₀).run acts).session.start = .ok played) (hn : played.noDebug = false)
    (he : played.stopOnEntry = false) (lines insts : Array Bool) (request : Option StepRequest) :
    let s := { played with lineBreaks := lines, instBreaks := insts, step := request }
    ∃ n point, (∀ j, j < n → s.stopPoint? j = none) ∧ s.stopPoint? n = some point ∧ s.burst = s.stopAt n point ∧
      s.machine.Succeeds n ∧ (∀ j, 1 ≤ j → j < n → s.breaksAt (s.machine.stepped j).pc = false) ∧
      (∀ reason, s.burst.1 = .paused reason → s.burst.2.step = none) ∧
      (∀ p, s.burst.1 = .exception p → s.burst.2.step = none) ∧
      ∀ f, point = .failure (.fault f) → (s.machine.stepped n).Showable →
        ∃ p, s.burst.1 = .exception p ∧ p.fault = f ∧ p.pc = (s.machine.stepped n).pc := by
  intro s
  obtain ⟨-, hf, rfl⟩ := Session.start_eq_ok.1 hp
  have ho := orderly_run h₀ acts
  have hd : s.machine.isDone = false := by
    refine Bool.eq_false_iff.2 fun hdone => ?_
    have hdone' := ho.done hdone
    rw [(Session.refusal?_eq_none.1 hf).1] at hdone'
    cases hdone'
  obtain ⟨n, point, hbefore, hat, hburst⟩ := Session.burst_eq_stopAt (s := s) rfl hn he hd
  have hstep := s.step_stopAt n point
  rw [← hburst] at hstep
  refine ⟨n, point, hbefore, hat, hburst, ?_, ?_, ?_, ?_, ?_⟩
  · intro j hj
    exact (Session.of_stopPoint?_eq_none (hbefore j hj)).1
  · intro j h1 hj
    exact (Session.of_stopPoint?_eq_none (hbefore j hj)).2 h1
  · exact fun reason ho => hstep (.inl ⟨reason, ho⟩)
  · exact fun p ho => hstep (.inr ⟨p, ho⟩)
  · rintro f rfl hu
    rw [hburst]
    exact Session.exception_stopAt (s := s) ho.named hat hu

/-- A session paused at entry that is played again, with breakpoints where it stands and in the call. -/
def callOnceAgain : Session :=
  { callOnceSession 100 with
    runState := .running, running := true, entryRequested := true, events := [.paused .entry],
    lineBreaks := #[true, false, false, false, false, false],
    instBreaks := #[false, false, false, false, true, false], step := some ⟨.out, .line, ⟨0, 1, 1⟩⟩ }

/-- It stops at the second breakpoint, three instructions on, and its step is given up. -/
theorem burst_stops_first_callOnce :
    callOnceAgain.stopPoint? 3 = some .breakpoint ∧ callOnceAgain.burst.1 = .paused .breakpoint ∧
    callOnceAgain.burst.2.machine.pc = 4 ∧ callOnceAgain.burst.2.step = none := by
  have hp : ((of (callOnceSession 100)).run [.ask .stopOnEntry, .ask .play, .turn, .deliver]).session.start =
      .ok { callOnceAgain with lineBreaks := .replicate 6 false, instBreaks := .replicate 6 false, step := none } := rfl
  obtain ⟨_, _, -, -, -, -, -, hpause, -, -⟩ :=
    burst_stops_first (create?_callOnce 100) _ hp rfl rfl callOnceAgain.lineBreaks callOnceAgain.instBreaks
      (some ⟨.out, .line, ⟨0, 1, 1⟩⟩)
  have hout : callOnceAgain.burst.1 = .paused .breakpoint := by decide
  exact ⟨rfl, hout, by decide, hpause .breakpoint hout⟩

/-- The session of a program that divides by zero in a function with an argument that cannot be shown. -/
def loopedCallSession : Session where
  machine := { Machine.loopedCallStart with limits := { maxInstructions := 100 } }
  table := .ofLines [1, 1, 1, 1, 2, 2, 2, 2, 2, 3, 3, 3, 5, 6, 6, 6, 7]

/-- A program, not valid, that jumps to a label it does not have. -/
def jumpNowhere : Image where
  code := #[⟨⟨1, 1⟩, .jump 0⟩]
  labels := #[]
  strings := #[]
  classes := #[]
  scopes := #[.global []]
  globalScope := 0

/-- Its session. -/
def jumpNowhereSession : Session where
  machine := ⟨jumpNowhere, { maxInstructions := 100 }, 0, [.fresh 0 0 0 [] 0], 0, none, [], [],
    Machine.loopedCallStart.world⟩
  table := .ofLines [1]

/-- **Not every step that fails pauses the program on its fault.**  In the first program fourteen steps succeed and the
next divides by zero, and the worker never gets done with the report; in the second the first step finds no label, and the
worker breaks down. -/
theorem fault_unreported :
    let world := Machine.loopedCallStart.world
    (Session.create? Machine.loopedCall { maxInstructions := 100 } world = some loopedCallSession ∧
      ∃ s, loopedCallSession.start = .ok s ∧ s.noDebug = false ∧ s.stopOnEntry = false ∧
        (∀ n, n < 14 → s.stopPoint? n = none) ∧ s.stopPoint? 14 = some (.failure (.fault .divideByZero)) ∧
        s.burst.1 = .hung) ∧
    Session.create? jumpNowhere { maxInstructions := 100 } world = some jumpNowhereSession ∧
      ∃ s, jumpNowhereSession.start = .ok s ∧ s.noDebug = false ∧ s.stopOnEntry = false ∧
        s.stopPoint? 0 = some (.failure (.abort .badIndex)) ∧ s.burst.1 = .crashed := by
  refine ⟨⟨rfl, _, rfl, rfl, rfl, fun n hn => ?_, rfl, by decide⟩, rfl, _, rfl, rfl, rfl, rfl, by decide⟩
  interval_cases n <;> rfl

end Desk

end PseudoVm
