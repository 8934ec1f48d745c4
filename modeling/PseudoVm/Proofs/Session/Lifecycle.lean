import PseudoVm.Proofs.Session.StopPoint
/-!
# Session.Lifecycle: the life of a session, and what is heard of it

Operations come one after the other, and a burst that one of them starts runs to its end before the next.  Then a
session is idle between operations (`Session.Idle`): no worker is live, it is not running, and it knows whether its
program has ended.  A burst that never ends leaves it to a worker that waits for ever (`Session.Held`).  From one reset
to the next, pauses are reported and then at most one end (`Session.Told`), because an operation reports an end only if
it leaves the session in a final state, and nothing is reported from there (`Session.Tells`).
-/
namespace PseudoVm

/-- Whether an event reports a pause. -/
def Event.isPause : Event → Bool
  | .paused _ | .exception _ => true
  | _ => false

/-- **How the end of a program is reported.** -/
inductive Ending : List Event → Prop
  | finished : Ending [.exited 0, .terminated]
  | failed (p : FaultReport) : Ending [.failed p, .exited 1]
  | terminated : Ending [.terminated]

/-- The session once an operation is over and no worker is left of it.  Waiting does nothing then. -/
def Request.complete (s : Session) : Request → Session
  | .play => s.play.toOption.getD s
  | .halt => s.halt
  | .rewind => s.reset
  | r => r.apply s

namespace Session

/-- The session once an operation is over; one that needs a stuck session never is. -/
def completed (s : Session) (r : Request) : Session := if s.stuck && r.needsSession then s else r.complete s

/-- The session after a sequence of operations. -/
def through (s : Session) (rs : List Request) : Session := rs.foldl completed s

theorem completed_of_not_stuck {s : Session} (h : s.stuck = false) (r : Request) : s.completed r = r.complete s := by
  unfold completed
  rw [h]
  rfl

/-- **A play is refused and leaves the session as it was, or starts a worker and waits for it.** -/
theorem complete_play (s : Session) : Request.play.complete s = s ∨
    ∃ started, s.start = .ok started ∧ Request.play.complete s = started.wait := by
  show s.play.toOption.getD s = s ∨ ∃ started, s.start = .ok started ∧ s.play.toOption.getD s = started.wait
  unfold play
  cases h : s.start with
  | error e => exact .inl rfl
  | ok started => exact .inr ⟨started, rfl, rfl⟩

variable {s s' : Session}

/-! ## Bursts -/

/-- **What a burst that nobody interrupts leaves**, given its outcome. -/
def Concluded (s : Session) : Outcome → Prop
  | .paused _ | .exception _ => s.runState = .paused ∧ s.done = false
  | .finished | .failed _ => s.runState = .terminated ∧ s.done = true
  | .crashed => s.runState = .terminated ∧ s.done = false
  | .hung => s.stuck = true
  | .terminated | .halted => False

/-- A burst of a session leads to an outcome and a session. -/
structure Ends (s : Session) (o : Outcome) (s' : Session) : Prop where
  orderly : s'.Orderly
  events : s'.events = s.events
  suppressed : s'.suppressed = s.suppressed
  running : s'.running = s.running
  stuck : o ≠ .hung → s'.stuck = s.stuck
  concluded : s'.Concluded o

theorem Section.concluded {o : Outcome} (h : Section s (some o) s') (hr : s.runState = .running)
    (hd : s.done = false) : s'.Concluded o := by
  cases h with
  | givesWay hn => exact absurd hr hn
  | pauses | breaks | excepts => exact ⟨rfl, hd⟩
  | ends | finishes | fails => exact ⟨rfl, rfl⟩
  | crashes => exact ⟨rfl, hd⟩
  | hangs => rfl

/-- A burst of a session has got as far as another. -/
structure Gets (s s' : Session) : Prop where
  orderly : s'.Orderly
  runState : s'.runState = .running
  done : s'.done = false
  events : s'.events = s.events
  suppressed : s'.suppressed = s.suppressed
  running : s'.running = s.running
  stuck : s'.stuck = s.stuck

namespace Gets

variable {s'' : Session}

theorem next (h : s.Gets s') (hs : Section s' none s'') : s.Gets s'' := by
  obtain ⟨he, hsup, -, hrun⟩ := hs.fixed
  have hgoes : s''.runState = .running ∧ s''.done = s'.done := by
    cases hs with
    | begins => exact ⟨h.runState, rfl⟩
    | next => exact ⟨h.runState, rfl⟩
  exact ⟨h.orderly.turn hs, hgoes.1, hgoes.2.trans h.done, he.trans h.events, hsup.trans h.suppressed,
    hrun.trans h.running, (hs.stuck nofun).trans h.stuck⟩

theorem last {o : Outcome} (h : s.Gets s') (hs : Section s' (some o) s'') : s.Ends o s'' := by
  obtain ⟨he, hsup, -, hrun⟩ := hs.fixed
  exact ⟨h.orderly.turn hs, he.trans h.events, hsup.trans h.suppressed, hrun.trans h.running,
    fun hne => (hs.stuck fun heq => hne (Option.some.inj heq)).trans h.stuck, hs.concluded h.runState h.done⟩

theorem spent (h : s.Gets s') : s.Ends s'.crashed.1 s'.crashed.2 :=
  ⟨⟨h.orderly.named, h.orderly.done⟩, h.events, h.suppressed, h.running, fun _ => h.stuck, rfl, h.done⟩

end Gets

/-- **Every burst of a session that runs ends in a pause or in the end of its life**, or never. -/
theorem ends_burst (ho : s.Orderly) (hr : s.runState = .running) (hd : s.done = false) :
    s.Ends s.burst.1 s.burst.2 :=
  burst_leaves Gets.next Gets.last Gets.spent ⟨ho, hr, hd, rfl, rfl, rfl, rfl⟩

theorem foldl_emit : ∀ (es : List Event) {s : Session}, s.suppressed = false →
    es.foldl emit s = { s with events := s.events ++ es }
  | [], s, _ => by rw [List.foldl_nil, List.append_nil]
  | e :: es, s, h => by
    have he : s.emit e = { s with events := s.events ++ [e] } := by rw [emit, h]; rfl
    rw [List.foldl_cons, he, foldl_emit es (s := { s with events := s.events ++ [e] }) h]
    simp only [List.append_assoc, List.singleton_append]

/-! ## Between operations -/

/-- **A session between operations.** -/
structure Idle (s : Session) : Prop where
  orderly : s.Orderly
  running : s.running = false
  stuck : s.stuck = false
  runState : s.runState ≠ .running
  done : s.done = true → s.runState = .terminated

/-- A session whose worker waits for ever. -/
structure Held (s : Session) : Prop where
  running : s.running = true
  stuck : s.stuck = true

/-- **What an operation reports**: nothing, a pause, or the end of a life that was not over and is then. -/
inductive Tells (s s' : Session) : Prop
  | nothing (he : s'.events = s.events) (hf : s.runState.isFinal = true → s'.runState.isFinal = true)
  | pause {e : Event} (hs : s.runState.isFinal = false) (he : s'.events = s.events ++ [e]) (hp : e.isPause = true)
  | ending {es : List Event} (hs : s.runState.isFinal = false) (he : s'.events = s.events ++ es) (hd : Ending es)
      (hf : s'.runState.isFinal = true)

theorem Concluded.tells {o : Outcome} {r : Session} (h : s'.Concluded o) (hs : s.runState.isFinal = false)
    (hr : r.runState = s'.runState) (he : r.events = s.events ++ eventsOf o) : s.Tells r := by
  have hfinal : s'.runState = .terminated → r.runState.isFinal = true := by
    intro ht
    rw [hr, ht]
    rfl
  cases o with
  | paused reason => exact .pause hs he rfl
  | exception p => exact .pause hs he rfl
  | finished => exact .ending hs he .finished (hfinal h.1)
  | failed p => exact .ending hs he (.failed p) (hfinal h.1)
  | crashed => exact .nothing (he.trans (List.append_nil _)) fun _ => hfinal h.1
  | hung => exact .nothing (he.trans (List.append_nil _)) fun hf => by rw [hs] at hf; cases hf
  | terminated | halted => exact h.elim

theorem Concluded.idle {o : Outcome} (h : s.Concluded o) (ho : o ≠ .hung) :
    s.runState ≠ .running ∧ (s.done = true → s.runState = .terminated) := by
  cases o with
  | paused _ | exception _ => exact ⟨by rw [h.1]; decide, fun hd => by rw [h.2] at hd; cases hd⟩
  | finished | failed _ => exact ⟨by rw [h.1]; decide, fun _ => h.1⟩
  | crashed => exact ⟨by rw [h.1]; decide, fun _ => h.1⟩
  | hung => exact absurd rfl ho
  | terminated | halted => exact h.elim

/-- A session whose events are heard, between operations or in one that never ends. -/
structure Rests (s : Session) : Prop where
  between : s.Idle ∨ s.Held
  heard : s.suppressed = false

/-- What an operation does to a session whose events are heard. -/
structure Advances (s s' : Session) : Prop where
  rests : s'.Rests
  tells : s.Tells s'

/-- **A worker leaves the session idle and reports how its burst ended**, or waits for ever. -/
theorem advances_work {started : Session} (ho : started.Orderly) (hr : started.runState = .running)
    (hd : started.done = false) (hw : started.working = true) (hsup : started.suppressed = false)
    (hs : s.runState.isFinal = false) (he : started.events = s.events) : s.Advances started.work := by
  have hb := ends_burst ho hr hd
  obtain ⟨hrun, hst⟩ := working_iff.1 hw
  have hsup' : (started.burst.2.conclude started.burst.1).suppressed = false := by
    rw [conclude_suppressed, hb.suppressed, hsup]
  have hwork : started.work = { started.burst.2.conclude started.burst.1 with
      events := s.events ++ eventsOf started.burst.1 } := by
    show (eventsOf started.burst.1).foldl emit (started.burst.2.conclude started.burst.1) = _
    rw [foldl_emit _ hsup', conclude_events, hb.events, he]
  rw [hwork]
  refine ⟨⟨?_, hsup'⟩, hb.concluded.tells hs (conclude_runState _ _) rfl⟩
  by_cases hung : started.burst.1 = .hung
  · have hc := hb.concluded
    rw [hung] at hc ⊢
    exact .inr ⟨hb.running.trans hrun, hc⟩
  · obtain ⟨hstate, hdone⟩ := hb.concluded.idle hung
    refine .inl ⟨⟨?_, ?_⟩, conclude_running _ _ hung, ?_, ?_, ?_⟩
    · simpa using hb.orderly.named
    · simpa using hb.orderly.done
    · simpa using (hb.stuck hung).trans hst
    · simpa using hstate
    · simpa using hdone

theorem exists_apply_eq {r : Request} (hr : r.isTransparent = false) (hw : r ≠ .rewind) (hq : ∀ on, r ≠ .suppress on) :
    ∃ m step exception, r.apply s = { s with machine := m, step := step, exception := exception } := by
  cases r with
  | setVariable id which v =>
    rw [Request.apply, setVariable]
    split
    · cases s.machine.assign (which.cell (id - 1)) v <;> exact ⟨_, _, _, rfl⟩
    · exact ⟨_, _, _, rfl⟩
  | restartFrame id =>
    rw [Request.apply, restartFrame]
    split
    · exact ⟨_, _, _, rfl⟩
    split
    · exact ⟨_, _, _, rfl⟩
    cases s.machine.restartFrame? id <;> exact ⟨_, _, _, rfl⟩
  | evaluate id code =>
    rw [Request.apply, evaluate]
    split <;> exact ⟨_, _, _, rfl⟩
  | rewind => exact absurd rfl hw
  | suppress on => exact absurd rfl (hq on)
  | play | pause | step | lineBreakpoints | instBreakpoints | stopOnEntry | noDebug | name | halt | terminate =>
    cases hr

namespace Idle

theorem keeps (h : s.Idle) (ho : s'.Orderly) (hrun : s'.running = s.running) (hk : s'.stuck = s.stuck)
    (hst : s'.runState = s.runState) (hd : s'.done = s.done) (he : s'.events = s.events)
    (hs : s'.suppressed = false) : s.Advances s' := by
  refine ⟨⟨.inl ⟨ho, hrun.trans h.running, hk.trans h.stuck, hst ▸ h.runState, fun hdone => ?_⟩, hs⟩, ?_⟩
  · exact hst.trans (h.done (hd.symm.trans hdone))
  · exact .nothing he fun hf => hst ▸ hf

theorem same (h : s.Idle) (hs : s.suppressed = false) : s.Advances s := h.keeps h.orderly rfl rfl rfl rfl rfl hs

theorem play (h : s.Idle) (hs : s.suppressed = false) : s.Advances (Request.play.complete s) := by
  rcases complete_play s with he | ⟨started, hst, he⟩
  · rw [he]
    exact h.same hs
  have ho : started.Orderly := by
    have ho := h.orderly.apply .play
    rw [Request.apply, hst] at ho
    exact ho
  obtain ⟨-, hf, rfl⟩ := start_eq_ok.1 hst
  obtain ⟨hd, hn⟩ := refusal?_eq_none.1 hf
  have hfinal : s.runState.isFinal = false := by
    cases hrs : s.runState with
    | running | paused => rfl
    | halted => exact absurd hrs hn.1
    | terminated => exact absurd hrs hn.2
  have hwork : ({ s with running := true, runState := .running, exception := none } : Session).working = true :=
    working_iff.2 ⟨rfl, h.stuck⟩
  rw [he, wait_of_working hwork]
  exact advances_work ho rfl hd hwork hs hfinal rfl

theorem halt (h : s.Idle) (hs : s.suppressed = false) :
    s.halt.Idle ∧ s.halt.suppressed = false ∧ s.halt.events = s.events ∧ s.Tells s.halt := by
  rw [halt_of_not_running h.running]
  have hdone : s.done = true → s.requestHalt.runState = .terminated := fun hdone => if_pos (h.done hdone)
  refine ⟨⟨h.orderly.apply .halt, h.running, h.stuck, ?_, hdone⟩, hs, rfl, .nothing rfl fun _ => ?_⟩
  · unfold requestHalt
    dsimp only
    split <;> decide
  · unfold requestHalt
    dsimp only
    split <;> rfl

theorem reset (h : s.Idle) (hs : s.suppressed = false) :
    s.reset.Idle ∧ s.reset.suppressed = false ∧ s.reset.events = s.events := by
  obtain ⟨hh, hsup, he, -⟩ := h.halt hs
  have hst : s.reset.runState = .paused := rfl
  exact ⟨⟨hh.orderly.rewound, hh.running, hh.stuck, by rw [hst]; decide, fun hdone => nomatch hdone⟩, hsup, he⟩

theorem terminate (h : s.Idle) (hs : s.suppressed = false) : s.Advances s.terminate := by
  have ho : s.terminate.Orderly := h.orderly.apply .terminate
  by_cases hn : (s.noDebug || s.runState.isFinal) = true
  · rw [terminate_eq, if_pos hn]
    exact h.same hs
  · have hfinal : s.runState.isFinal = false := by
      rw [Bool.or_eq_true_iff, not_or] at hn
      exact Bool.eq_false_iff.2 hn.2
    have ht : s.terminate =
        { s with runState := .terminated, step := none, events := s.events ++ [.terminated] } := by
      rw [terminate_eq, if_neg hn, if_neg (by rw [h.running, hs]; decide)]
    rw [ht] at ho ⊢
    exact ⟨⟨.inl ⟨ho, h.running, h.stuck, RunState.noConfusion, fun _ => rfl⟩, hs⟩, .ending hfinal rfl .terminated rfl⟩

/-- **Every operation short of a reset.** -/
theorem complete (h : s.Idle) (hs : s.suppressed = false) {r : Request} (hr : r ≠ .rewind) (hq : r ≠ .suppress true) :
    s.Advances (r.complete s) := by
  have ho := h.orderly.apply r
  cases r with
  | play => exact h.play hs
  | halt =>
    obtain ⟨hi, hsup, -, ht⟩ := h.halt hs
    exact ⟨⟨.inl hi, hsup⟩, ht⟩
  | terminate => exact h.terminate hs
  | rewind => exact absurd rfl hr
  | pause =>
    have hp : s.pause = s := if_pos (Bool.or_eq_true_iff.2 (.inr (bne_iff_ne.2 h.runState)))
    show s.Advances s.pause
    rw [hp]
    exact h.same hs
  | step kind granularity =>
    show s.Advances (s.armStep kind granularity)
    unfold armStep
    split
    · exact h.same hs
    · exact h.keeps ⟨h.orderly.named, h.orderly.done⟩ rfl rfl rfl rfl rfl hs
  | lineBreakpoints | instBreakpoints | stopOnEntry | noDebug | name => exact h.keeps ho rfl rfl rfl rfl rfl hs
  | suppress on =>
    cases on with
    | true => exact absurd rfl hq
    | false => exact h.keeps ho rfl rfl rfl rfl rfl rfl
  | setVariable id which v | restartFrame id | evaluate id code =>
    obtain ⟨m, step, exception, he⟩ := exists_apply_eq (s := s) rfl hr fun on ho => nomatch ho
    rw [he] at ho
    have hk := h.keeps ho rfl rfl rfl rfl rfl hs
    rw [← he] at hk
    exact hk

end Idle

/-- **Nothing but events being dropped changes a session that its worker keeps.** -/
theorem Held.completed (h : s.Held) {r : Request} (hq : r ≠ .suppress true) (hs : s.suppressed = false) :
    s.completed r = s := by
  unfold Session.completed
  rw [h.stuck, Bool.true_and]
  cases r with
  | play =>
    have hplay : s.play = .error .alreadyRunning := by
      rw [play, start, reserve?, if_pos h.running]
      rfl
    show s.play.toOption.getD s = s
    rw [hplay]
    rfl
  | suppress on =>
    cases on with
    | true => exact absurd rfl hq
    | false =>
      show { s with suppressed := false } = s
      rw [← hs]
  | pause | step | lineBreakpoints | instBreakpoints | stopOnEntry | noDebug | name | halt | terminate | setVariable
  | restartFrame | evaluate | rewind => rfl

namespace Rests

/-- **Every operation short of a reset**, also one that never ends. -/
theorem completed (h : s.Rests) {r : Request} (hr : r ≠ .rewind) (hq : r ≠ .suppress true) :
    s.Advances (s.completed r) := by
  rcases h.between with hi | hh
  · rw [completed_of_not_stuck hi.stuck]
    exact hi.complete h.heard hr hq
  · rw [hh.completed hq h.heard]
    exact ⟨h, .nothing rfl fun hf => hf⟩

theorem rewound (h : s.Rests) : (s.completed .rewind).Rests ∧ (s.completed .rewind).events = s.events := by
  rcases h.between with hi | hh
  · rw [completed_of_not_stuck hi.stuck]
    obtain ⟨hi', hs', he⟩ := hi.reset h.heard
    exact ⟨⟨.inl hi', hs'⟩, he⟩
  · rw [hh.completed (by simp) h.heard]
    exact ⟨h, rfl⟩

theorem through : ∀ (rs : List Request) {s : Session}, s.Rests → (∀ r ∈ rs, r ≠ .suppress true) → (s.through rs).Rests
  | [], _, h, _ => h
  | r :: rs, s, h, hq => by
    have hone : (s.completed r).Rests := by
      by_cases hr : r = .rewind
      · subst hr
        exact h.rewound.1
      · exact (h.completed hr (hq r List.mem_cons_self)).rests
    exact through rs hone fun r' hr' => hq r' (List.mem_cons_of_mem r hr')

end Rests

/-- **What has been heard of a life**: since `before` was heard, pauses and then at most one end, which is final. -/
structure Told (before : List Event) (s : Session) : Prop where
  word : ∃ pauses ending, s.events = before ++ pauses ++ ending ∧ (∀ e ∈ pauses, e.isPause = true) ∧
    (ending = [] ∨ Ending ending ∧ s.runState.isFinal = true)

theorem Told.tells {before : List Event} (h : Told before s) (ht : s.Tells s') : Told before s' := by
  obtain ⟨pauses, ending, he, hp, hend⟩ := h.word
  -- a life of which something more is heard has not ended
  have hopen : s.runState.isFinal = false → s.events = before ++ pauses := by
    intro hs
    rcases hend with rfl | ⟨-, hf⟩
    · rw [he, List.append_nil]
    · rw [hs] at hf
      cases hf
  cases ht with
  | nothing he' hf => exact ⟨pauses, ending, he'.trans he, hp, hend.imp_right fun hd => ⟨hd.1, hf hd.2⟩⟩
  | @pause e hs he' hpause =>
    refine ⟨pauses ++ [e], [], ?_, fun e' hm => ?_, .inl rfl⟩
    · rw [he', hopen hs, List.append_nil, List.append_assoc]
    · rcases List.mem_append.1 hm with hm | hm
      · exact hp e' hm
      · rw [List.mem_singleton.1 hm]
        exact hpause
  | @ending es hs he' hd hf => exact ⟨pauses, es, by rw [he', hopen hs], hp, .inr ⟨hd, hf⟩⟩

end Session

end PseudoVm
