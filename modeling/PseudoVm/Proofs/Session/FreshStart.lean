import PseudoVm.Proofs.Machine.FailedStep
import PseudoVm.Proofs.Machine.StackShape
import PseudoVm.Proofs.Session.Lifecycle
/-!
# Session.FreshStart: a reset session is a new one

Most of what a session holds belongs to one run of its program, and a reset puts it back.  The rest are the settings
(`Session.settings`), which only the requests that make them change, and the log of what has been reported, which no
operation looks at (`Session.complete_logged`).  So a reset session is a new session over the world it finds, on which
the settings have been made again, but for its log (`Session.reset_eq`); and from there the two go the same way
(`Session.reset_is_fresh`).
-/
namespace PseudoVm

/-- What an operation answers. -/
inductive Reply
  /-- It waits for a stuck session. -/
  | never
  | nothing
  | outcome (r : Except SessionError Unit)
  | statuses (r : List BreakpointStatus)
  | value (r : Except Abort (Except SessionError Value))

namespace Request

/-- The answer of a session that can be asked. -/
def answer (s : Session) : Request → Reply
  | .play => .outcome (s.play.map fun _ => ())
  | .lineBreakpoints lines => .statuses (s.setLineBreakpoints lines).1
  | .instBreakpoints pcs => .statuses (s.setInstBreakpoints pcs).1
  | .setVariable id which v => .outcome ((s.setVariable id which v).map fun _ => ())
  | .restartFrame id => .outcome ((s.restartFrame id).map fun _ => ())
  | .evaluate id code => .value (s.evaluate id code).1
  | _ => .nothing

/-- The answer to an operation. -/
def reply (s : Session) (r : Request) : Reply := if s.stuck && r.needsSession then .never else r.answer s

/-- Whether an operation only makes a setting. -/
def isSetting : Request → Bool
  | .lineBreakpoints _ | .instBreakpoints _ | .stopOnEntry | .noDebug | .name _ | .suppress _ => true
  | _ => false

end Request

namespace Session

/-- What can be seen of a session without changing it. -/
structure Look where
  position : Nat × SourcePos
  frames : Option (List FrameView)
  stackTrace : Except Abort String
  output : String
  result : Option Value
  exception : Option (FaultReport × String)
  runState : RunState
  done : Bool
  running : Bool
  validLines : List Nat

/-- A look at a session. -/
def look (s : Session) : Look where
  position := s.position
  frames := s.frames?
  stackTrace := s.stackTrace
  output := s.machine.world.console.output
  result := s.machine.result
  exception := s.exception
  runState := s.runState
  done := s.done
  running := s.running
  validLines := s.table.validLines

/-! ## The log -/

/-- A session that had reported something before. -/
def logged (es : List Event) (s : Session) : Session := { s with events := es ++ s.events }

section Logged

variable {es : List Event} {s s' : Session}

theorem emit_logged (e : Event) : (s.logged es).emit e = (s.emit e).logged es := by
  unfold emit
  by_cases hsup : s.suppressed = true
  · rw [if_pos hsup]
    exact if_pos hsup
  · rw [if_neg hsup]
    refine (if_neg hsup).trans ?_
    simp only [logged, List.append_assoc]

theorem report_logged (o : Outcome) : (s.logged es).report o = (s.report o).logged es := by
  unfold report
  induction eventsOf o generalizing s with
  | nil => rfl
  | cons e rest ih => rw [List.foldl_cons, List.foldl_cons, emit_logged, ih]

theorem conclude_logged (o : Outcome) : (s.logged es).conclude o = (s.conclude o).logged es := by cases o <;> rfl

theorem enter_logged {o : Option Outcome} (h : s.enter = (o, s')) : (s.logged es).enter = (o, s'.logged es) := by
  unfold enter at h ⊢
  by_cases hrun : s.runState ≠ .running
  · rw [if_pos hrun] at h
    cases h
    exact if_pos hrun
  rw [if_neg hrun] at h
  refine (if_neg hrun).trans ?_
  by_cases hentry : s.stopOnEntry = true
  · rw [if_pos hentry] at h
    refine (if_pos hentry).trans ?_
    by_cases hn : s.noDebug = true
    · have hn' : ({ s with stopOnEntry := false } : Session).noDebug = true := hn
      rw [if_pos hn'] at h
      cases h
      exact if_pos hn
    · have hn' : ¬ ({ s with stopOnEntry := false } : Session).noDebug = true := hn
      rw [if_neg hn'] at h
      cases h
      exact if_neg hn
  · rw [if_neg hentry] at h
    cases h
    exact if_neg hentry

theorem afterStep_logged {o : Option Outcome} (h : s.afterStep = (o, s')) :
    (s.logged es).afterStep = (o, s'.logged es) := by
  unfold afterStep at h ⊢
  by_cases hdone : s.machine.isDone = true
  · rw [if_pos hdone] at h
    cases h
    exact if_pos hdone
  rw [if_neg hdone] at h
  refine (if_neg hdone).trans ?_
  by_cases hbreak : (!s.noDebug && s.breaksAt s.machine.pc) = true
  · rw [if_pos hbreak] at h
    cases h
    exact if_pos hbreak
  · rw [if_neg hbreak] at h
    cases h
    exact if_neg hbreak

theorem failed_logged (p : FaultReport) : (s.logged es).failed p = ((s.failed p).1, (s.failed p).2.logged es) := by
  unfold failed
  by_cases hn : s.noDebug = true
  · rw [if_pos hn]
    exact if_pos hn
  · rw [if_neg hn]
    exact if_neg hn

theorem tick_logged {o : Option Outcome} (h : s.tick = (o, s')) : (s.logged es).tick = (o, s'.logged es) := by
  unfold tick at h ⊢
  by_cases hrun : s.runState ≠ .running
  · rw [if_pos hrun] at h
    cases h
    exact if_pos hrun
  rw [if_neg hrun] at h
  refine (if_neg hrun).trans ?_
  by_cases hdone : s.machine.isDone = true
  · rw [if_pos hdone] at h
    cases h
    exact if_pos hdone
  rw [if_neg hdone] at h
  refine (if_neg hdone).trans ?_
  by_cases hstep : s.stepEnds = true
  · rw [if_pos hstep] at h
    cases h
    exact if_pos hstep
  rw [if_neg hstep] at h
  refine (if_neg hstep).trans ?_
  cases hs : s.machine.step with
  | mk stop m =>
    have hlogged : (s.logged es).machine.step = (stop, m) := hs
    rw [hs] at h
    rw [hlogged]
    cases stop with
    | none => exact afterStep_logged h
    | some stop =>
      dsimp only at h ⊢
      cases hx : m.explain stop with
      | error a =>
        rw [hx] at h
        cases a <;> cases h <;> rfl
      | ok p =>
        rw [hx] at h
        have hfailed : ({ s with machine := m }.logged es).failed p = _ := failed_logged p
        cases h
        exact congrArg ended hfailed

theorem turns_logged : ∀ (fuel : Nat) {s : Session},
    turns fuel (s.logged es) = ((turns fuel s).1, (turns fuel s).2.logged es)
  | 0, _ => rfl
  | fuel + 1, s => by
    unfold turns
    cases ht : s.tick with
    | mk o s' =>
      rw [tick_logged ht]
      cases o with
      | some o => rfl
      | none => exact turns_logged fuel

theorem burst_logged : (s.logged es).burst = (s.burst.1, s.burst.2.logged es) := by
  unfold burst
  cases he : s.enter with
  | mk o s' =>
    rw [enter_logged he]
    cases o with
    | some o => rfl
    | none => exact turns_logged (s'.machine.budget + 1)

theorem work_logged : (s.logged es).work = s.work.logged es := by
  show ((s.logged es).burst.2.conclude (s.logged es).burst.1).report (s.logged es).burst.1 = _
  rw [burst_logged]
  dsimp only
  rw [conclude_logged, report_logged]
  rfl

theorem start_logged : (s.logged es).start = s.start.map (logged es) := by
  cases h : s.start with
  | ok started =>
    obtain ⟨hrun, hfree, rfl⟩ := start_eq_ok.1 h
    exact start_eq_ok.2 ⟨hrun, hfree, rfl⟩
  | error e =>
    unfold start reserve? at h ⊢
    cases hrun : s.running with
    | true =>
      rw [if_pos hrun] at h
      rw [if_pos (show (s.logged es).running = true from hrun)]
      cases h
      rfl
    | false =>
      rw [if_neg (by simp [hrun])] at h
      rw [if_neg (by simp [logged, hrun])]
      dsimp only at h ⊢
      unfold grant at h ⊢
      have hfree : ({ s.logged es with running := true } : Session).refusal? =
          ({ s with running := true } : Session).refusal? := rfl
      rw [hfree]
      cases hf : ({ s with running := true } : Session).refusal? with
      | some e' =>
        rw [hf] at h
        cases h
        rfl
      | none =>
        rw [hf] at h
        cases h

theorem wait_logged : (s.logged es).wait = s.wait.logged es := by
  unfold wait
  by_cases hw : s.working = true
  · rw [if_pos hw]
    exact (if_pos hw).trans work_logged
  · rw [if_neg hw]
    exact if_neg hw

theorem play_logged : (s.logged es).play = s.play.map (logged es) := by
  unfold play
  rw [start_logged]
  cases h : s.start with
  | error e => rfl
  | ok started => exact congrArg Except.ok wait_logged

theorem halt_logged : (s.logged es).halt = s.halt.logged es := wait_logged (s := s.requestHalt)

theorem terminate_logged : (s.logged es).terminate = s.terminate.logged es := by
  rw [terminate_eq, terminate_eq]
  by_cases hend : (s.noDebug || s.runState.isFinal) = true
  · rw [if_pos hend]
    exact if_pos hend
  rw [if_neg hend]
  refine (if_neg hend).trans ?_
  by_cases hquiet : (s.running || s.suppressed) = true
  · rw [if_pos hquiet]
    exact if_pos hquiet
  · rw [if_neg hquiet]
    refine (if_neg hquiet).trans ?_
    simp only [logged, List.append_assoc]

theorem armStep_logged (kind : StepKind) (granularity : Granularity) :
    (s.logged es).armStep kind granularity = (s.armStep kind granularity).logged es := by
  unfold armStep
  by_cases hend : (s.noDebug || s.done) = true
  · rw [if_pos hend]
    exact if_pos hend
  · rw [if_neg hend]
    exact if_neg hend

theorem pause_logged : (s.logged es).pause = s.pause.logged es := by
  unfold pause
  by_cases hend : (s.noDebug || s.runState != .running) = true
  · rw [if_pos hend]
    exact if_pos hend
  · rw [if_neg hend]
    exact if_neg hend

theorem setVariable_logged (id : Nat) (which : Variable) (v : Value) :
    (s.logged es).setVariable id which v = (s.setVariable id which v).map (logged es) := by
  unfold setVariable
  by_cases hframe : s.hasFrame id = true
  · rw [if_pos hframe]
    refine (if_pos hframe).trans ?_
    cases hm : s.machine.assign (which.cell (id - 1)) v with
    | error f => rw [show (s.logged es).machine.assign (which.cell (id - 1)) v = _ from hm]; rfl
    | ok m => rw [show (s.logged es).machine.assign (which.cell (id - 1)) v = _ from hm]; rfl
  · rw [if_neg hframe]
    exact if_neg hframe

theorem restartFrame_logged (id : Nat) :
    (s.logged es).restartFrame id = (s.restartFrame id).map (logged es) := by
  unfold restartFrame
  by_cases hn : s.noDebug = true
  · rw [if_pos hn]
    exact if_pos hn
  rw [if_neg hn]
  refine (if_neg hn).trans ?_
  by_cases hdone : s.done = true
  · rw [if_pos hdone]
    exact if_pos hdone
  rw [if_neg hdone]
  refine (if_neg hdone).trans ?_
  cases hm : s.machine.restartFrame? id with
  | none => rw [show (s.logged es).machine.restartFrame? id = _ from hm]; rfl
  | some m => rw [show (s.logged es).machine.restartFrame? id = _ from hm]; rfl

theorem evaluate_logged (id : Nat) (code : List Instruction) :
    (s.logged es).evaluate id code = ((s.evaluate id code).1, (s.evaluate id code).2.logged es) := by
  unfold evaluate
  by_cases hframe : s.hasFrame id = true
  · rw [if_pos hframe]
    exact if_pos hframe
  · rw [if_neg hframe]
    exact if_neg hframe

theorem getD_logged (r : Except SessionError Session) :
    (r.map (logged es)).toOption.getD (s.logged es) = (r.toOption.getD s).logged es := by cases r <;> rfl

/-- **No operation looks at the log**: it does the same to a session that had reported something before. -/
theorem complete_logged (r : Request) : r.complete (s.logged es) = (r.complete s).logged es := by
  cases r with
  | play =>
    show (s.logged es).play.toOption.getD (s.logged es) = _
    rw [play_logged]
    exact getD_logged s.play
  | setVariable id which v =>
    show ((s.logged es).setVariable id which v).toOption.getD (s.logged es) = _
    rw [setVariable_logged]
    exact getD_logged (s.setVariable id which v)
  | restartFrame id =>
    show ((s.logged es).restartFrame id).toOption.getD (s.logged es) = _
    rw [restartFrame_logged]
    exact getD_logged (s.restartFrame id)
  | evaluate id code => exact congrArg Prod.snd (evaluate_logged id code)
  | halt => exact halt_logged
  | terminate => exact terminate_logged
  | pause => exact pause_logged
  | step kind granularity => exact armStep_logged kind granularity
  | rewind =>
    show (s.logged es).halt.rewound = _
    rw [halt_logged]
    rfl
  | lineBreakpoints | instBreakpoints | stopOnEntry | noDebug | name | suppress => rfl

theorem completed_logged (r : Request) : (s.logged es).completed r = (s.completed r).logged es := by
  unfold completed
  by_cases hwait : (s.stuck && r.needsSession) = true
  · rw [if_pos hwait]
    exact if_pos hwait
  · rw [if_neg hwait]
    exact (if_neg hwait).trans (complete_logged r)

theorem answer_logged (r : Request) : r.answer (s.logged es) = r.answer s := by
  have hforget : ∀ x : Except SessionError Session, (x.map (logged es)).map (fun _ => ()) = x.map fun _ => () := by
    intro x
    cases x <;> rfl
  cases r with
  | play => exact congrArg Reply.outcome (by rw [play_logged, hforget])
  | setVariable id which v => exact congrArg Reply.outcome (by rw [setVariable_logged, hforget])
  | restartFrame id => exact congrArg Reply.outcome (by rw [restartFrame_logged, hforget])
  | evaluate id code => exact congrArg Reply.value (by rw [evaluate_logged])
  | lineBreakpoints | instBreakpoints | stopOnEntry | noDebug | name | suppress | halt | terminate | pause | step |
    rewind => rfl

theorem reply_logged (r : Request) : r.reply (s.logged es) = r.reply s := by
  unfold Request.reply
  rw [answer_logged]
  rfl

theorem through_logged : ∀ (rs : List Request) {s : Session}, (s.logged es).through rs = (s.through rs).logged es
  | [], _ => rfl
  | r :: rs, s => by
    show ((s.logged es).completed r).through rs = ((s.completed r).through rs).logged es
    rw [completed_logged]
    exact through_logged rs

end Logged

/-! ## Settings -/

/-- What a session is told and keeps: it is neither changed by runs of the program nor put back by a reset. -/
structure Settings where
  lineBreaks : Array Bool
  instBreaks : Array Bool
  noDebug : Bool
  entryRequested : Bool
  file : String
  suppressed : Bool

/-- The settings of a session. -/
def settings (s : Session) : Settings :=
  ⟨s.lineBreaks, s.instBreaks, s.noDebug, s.entryRequested, s.file, s.suppressed⟩

end Session

/-! ## What stays of a machine -/

namespace Machine

theorem Move.suspended {m m' : Machine} (h : Move m m') : m'.suspended = m.suspended := by
  cases h with
  | step => exact m.step_suspended
  | restart hr =>
    obtain ⟨_, _, -, hst⟩ := restartFrame?_eq_some hr
    exact hst.suspended
  | rewind => exact m.steady_rewind.suspended
  | store hs => exact (steady_assign hs).suspended

theorem evaluate_fixed (m : Machine) (id : Nat) (code : List Instruction) :
    ∃ w, (m.evaluate id code).2 = { m with world := w } := by
  unfold evaluate
  cases (if id = 0 then none else m.frame? (id - 1)) with
  | none => exact ⟨m.world, rfl⟩
  | some f => exact ⟨_, rfl⟩

/-- **A program started over is one about to start,** over the world it finds. -/
theorem rewind_eq {m : Machine} (h : m.suspended = []) :
    create? m.image m.limits m.rewind.world = (bottom? m.image).map fun _ => m.rewind := by
  unfold create?
  have hst := m.steady_rewind
  have hstack : m.rewind.stack = (bottom? m.image).toList := (settle_stack _).trans (letGo_stack _ _)
  have hloose : m.rewind.loose = [] := settle_loose _
  cases hb : bottom? m.image with
  | none => rfl
  | some f =>
    rw [Option.map_some, Option.map_some]
    rw [hb] at hstack
    have himage := hst.image
    have hlimits := hst.limits
    have hpc := hst.pc
    have hexecuted := hst.executed
    have hresult := hst.result
    have hsuspended := hst.suspended.trans h
    generalize m.rewind = r at *
    cases r
    simp_all

theorem rewind_world (m : Machine) : m.rewind.world.heap = m.world.heap ∧ m.rewind.world.console = m.world.console ∧
    m.rewind.world.random = m.world.random ∧ m.rewind.world.files = m.world.files := by
  obtain ⟨freed, hfreed, -⟩ := settle_world
    ({ m with stack := (bottom? m.image).toList, pc := 0, executed := 0, result := none }.letGo
      (m.stack.reverse.flatMap Frame.values ++ m.result.toList))
  have hsame : ∀ (m : Machine) (vs : List Value), (m.letGo vs).world = m.world := by
    intro m vs
    unfold letGo
    split <;> rfl
  rw [hsame] at hfreed
  have hworld : m.rewind.world = freed.foldl World.release m.world := hfreed
  rw [hworld]
  exact World.foldl_release_fixed freed m.world

end Machine

/-! ## What stays of a session -/

namespace Session

/-- What stays, whatever a program does and a debugger does to it. -/
structure Stays (s s' : Session) : Prop where
  image : s'.machine.image = s.machine.image
  limits : s'.machine.limits = s.machine.limits
  suspended : s'.machine.suspended = s.machine.suspended
  table : s'.table = s.table
  settings : s'.settings = s.settings

namespace Stays

variable {s s' s'' : Session}

theorem refl (s : Session) : Stays s s := ⟨rfl, rfl, rfl, rfl, rfl⟩

theorem trans (h : Stays s s') (h' : Stays s' s'') : Stays s s'' :=
  ⟨h'.image.trans h.image, h'.limits.trans h.limits, h'.suspended.trans h.suspended, h'.table.trans h.table,
    h'.settings.trans h.settings⟩

theorem of_move (h : s.machine.Move s'.machine) (ht : s'.table = s.table) (hs : s'.settings = s.settings) :
    Stays s s' := ⟨h.fixed.1, h.fixed.2, h.suspended, ht, hs⟩

theorem of_machine_eq (h : s'.machine = s.machine) (ht : s'.table = s.table) (hs : s'.settings = s.settings) :
    Stays s s' := ⟨by rw [h], by rw [h], by rw [h], ht, hs⟩

end Stays

variable {s s' : Session}

theorem Section.stays {o : Option Outcome} (h : Section s o s') : s.Stays s' := by
  cases h with
  | givesWay | begins | pauses | ends => exact .of_machine_eq rfl rfl rfl
  | next | breaks | finishes | excepts | fails | crashes | hangs => exact .of_move (.step s.machine) rfl rfl

/-- A turn that ends the burst leaves the worker live, and stuck exactly if it never gets on. -/
theorem Section.worker {o : Outcome} (h : Section s (some o) s') (hw : s.working = true) :
    s'.running = true ∧ (s'.stuck = true ↔ o = .hung) := by
  obtain ⟨hr, hs⟩ := working_iff.1 hw
  refine ⟨h.fixed.2.2.2.trans hr, fun hk => ?_, fun ho => ?_⟩
  · by_contra hne
    rw [h.stuck fun heq => hne (Option.some.inj heq), hs] at hk
    cases hk
  · subst ho
    generalize hout : some Outcome.hung = out at h
    cases h with
    | hangs => rfl
    | givesWay => cases hst : s.runState <;> rw [hst] at hout <;> cases hout
    | begins | pauses | ends | next | breaks | finishes | excepts | fails | crashes => cases hout

theorem stays_burst : s.Stays s.burst.2 :=
  burst_leaves (P := s.Stays) (Q := fun _ => s.Stays) (fun h hs => h.trans hs.stays) (fun h hs => h.trans hs.stays)
    (fun h => h.trans (.of_machine_eq rfl rfl rfl)) (.refl s)

/-- **A burst leaves its worker live**, and stuck exactly if it never ends. -/
theorem worker_burst (h : s.working = true) :
    s.burst.2.running = true ∧ (s.burst.2.stuck = true ↔ s.burst.1 = .hung) := by
  have hspent : ∀ {s : Session}, s.working = true →
      s.crashed.2.running = true ∧ (s.crashed.2.stuck = true ↔ s.crashed.1 = .hung) := by
    intro s hw
    obtain ⟨hr, hs⟩ := working_iff.1 hw
    exact ⟨hr, fun hk => absurd hk (Bool.eq_false_iff.1 hs), nofun⟩
  exact burst_leaves (P := (·.working = true)) (Q := fun o s => s.running = true ∧ (s.stuck = true ↔ o = .hung))
    (fun h hs => hs.working.trans h) (fun h hs => hs.worker h) hspent h

theorem stays_conclude (o : Outcome) : s.Stays (s.conclude o) := by cases o <;> exact .of_machine_eq rfl rfl rfl

theorem stays_start (h : s.start = .ok s') : s.Stays s' := by
  obtain ⟨-, -, rfl⟩ := start_eq_ok.1 h
  exact .of_machine_eq rfl rfl rfl

theorem stays_emit (e : Event) :
    s.Stays (s.emit e) ∧ (s.emit e).running = s.running ∧ (s.emit e).stuck = s.stuck := by
  unfold emit
  split
  · exact ⟨.refl s, rfl, rfl⟩
  · exact ⟨.of_machine_eq rfl rfl rfl, rfl, rfl⟩

theorem stays_report : ∀ (es : List Event) {s : Session},
    s.Stays (es.foldl emit s) ∧ (es.foldl emit s).running = s.running ∧ (es.foldl emit s).stuck = s.stuck
  | [], s => ⟨.refl s, rfl, rfl⟩
  | e :: es, s => by
    obtain ⟨hs, hr, hk⟩ := stays_emit (s := s) e
    obtain ⟨hs', hr', hk'⟩ := stays_report es (s := s.emit e)
    exact ⟨hs.trans hs', hr'.trans hr, hk'.trans hk⟩

/-- Whether a worker is live after a burst that leads to an outcome and a session. -/
theorem conclude_running_eq {o : Outcome} (hr : s.running = true) (hs : s.stuck = true ↔ o = .hung) :
    (s.conclude o).running = (s.conclude o).stuck := by
  rw [conclude_stuck]
  by_cases ho : o = .hung
  · rw [hs.2 ho, ho]
    exact hr
  · rw [Bool.eq_false_iff.2 fun h => ho (hs.1 h), conclude_running s o ho]

theorem stays_work (hw : s.working = true) : s.Stays s.work ∧ s.work.running = s.work.stuck := by
  obtain ⟨hs, hr, hk⟩ := stays_report (eventsOf s.burst.1) (s := s.burst.2.conclude s.burst.1)
  obtain ⟨hlive, hstuck⟩ := worker_burst hw
  exact ⟨(stays_burst.trans (stays_conclude _)).trans hs, hr.trans ((conclude_running_eq hlive hstuck).trans hk.symm)⟩

theorem stays_wait : s.Stays s.wait := by
  unfold wait
  split
  · rename_i hw
    exact (stays_work hw).1
  · exact .refl s

theorem stays_play (hr : s.running = false) (hk : s.stuck = false) :
    s.Stays (Request.play.complete s) ∧ (Request.play.complete s).running = (Request.play.complete s).stuck := by
  rcases complete_play s with he | ⟨started, hst, he⟩
  · rw [he]
    exact ⟨.refl s, hr.trans hk.symm⟩
  have hstart := stays_start hst
  have hw : started.working = true := by
    obtain ⟨-, -, rfl⟩ := start_eq_ok.1 hst
    exact working_iff.2 ⟨rfl, hk⟩
  obtain ⟨hs, hr'⟩ := stays_work hw
  rw [he, wait_of_working hw]
  exact ⟨hstart.trans hs, hr'⟩

/-- **A request that makes no setting changes none.** -/
theorem stays_apply {r : Request} (hset : r.isSetting = false) (s : Session) : s.Stays (r.apply s) := by
  cases r with
  | play =>
    rw [Request.apply]
    cases h : s.start with
    | error e => exact .refl s
    | ok started => exact stays_start h
  | pause =>
    rw [Request.apply, pause]
    split
    · exact .refl s
    · exact .of_machine_eq rfl rfl rfl
  | step kind granularity =>
    rw [Request.apply, armStep]
    split
    · exact .refl s
    · exact .of_machine_eq rfl rfl rfl
  | halt => exact .of_machine_eq rfl rfl rfl
  | terminate =>
    rw [Request.apply, terminate_eq]
    split
    · exact .refl s
    split <;> exact .of_machine_eq rfl rfl rfl
  | setVariable id which v =>
    rw [Request.apply, setVariable]
    split
    · cases hm : s.machine.assign (which.cell (id - 1)) v with
      | error f => exact .refl s
      | ok m => exact .of_move (.store hm) rfl rfl
    · exact .refl s
  | restartFrame id =>
    rw [Request.apply, restartFrame]
    split
    · exact .refl s
    split
    · exact .refl s
    cases hm : s.machine.restartFrame? id with
    | none => exact .refl s
    | some m => exact .of_move (.restart hm) rfl rfl
  | evaluate id code =>
    rw [Request.apply, evaluate]
    split
    · obtain ⟨w, hw⟩ := s.machine.evaluate_fixed id code
      dsimp only
      rw [hw]
      exact ⟨rfl, rfl, rfl, rfl, rfl⟩
    · exact .refl s
  | rewind => exact .of_move (.rewind s.machine) rfl rfl
  | lineBreakpoints | instBreakpoints | stopOnEntry | noDebug | name | suppress => cases hset

/-- **No request but to play has to do with the worker.** -/
theorem worker_apply {r : Request} (hp : r ≠ .play) (s : Session) :
    (r.apply s).running = s.running ∧ (r.apply s).stuck = s.stuck := by
  have hinside : r.isTransparent = false → r ≠ .rewind → (∀ on, r ≠ .suppress on) →
      (r.apply s).running = s.running ∧ (r.apply s).stuck = s.stuck := by
    intro ht hw hq
    obtain ⟨m, step, exception, he⟩ := exists_apply_eq (s := s) ht hw hq
    rw [he]
    exact ⟨rfl, rfl⟩
  cases r with
  | play => exact absurd rfl hp
  | pause =>
    rw [Request.apply, pause]
    split <;> exact ⟨rfl, rfl⟩
  | step kind granularity =>
    rw [Request.apply, armStep]
    split <;> exact ⟨rfl, rfl⟩
  | terminate =>
    rw [Request.apply, terminate_eq]
    split
    · exact ⟨rfl, rfl⟩
    split <;> exact ⟨rfl, rfl⟩
  | setVariable | restartFrame | evaluate => exact hinside rfl (by simp) (by simp)
  | halt | rewind | lineBreakpoints | instBreakpoints | stopOnEntry | noDebug | name | suppress => exact ⟨rfl, rfl⟩

/-- **An operation that makes no setting changes none,** and leaves no worker behind but one that waits for ever. -/
theorem stays_complete {r : Request} (hr : s.running = false) (hk : s.stuck = false) (hset : r.isSetting = false) :
    s.Stays (r.complete s) ∧ (r.complete s).running = (r.complete s).stuck := by
  have hdone : r ≠ .play → s.Stays (r.apply s) ∧ (r.apply s).running = (r.apply s).stuck := by
    intro hp
    obtain ⟨hrun, hstuck⟩ := worker_apply hp s
    exact ⟨stays_apply hset s, by rw [hrun, hstuck, hr, hk]⟩
  cases r with
  | play => exact stays_play hr hk
  | halt =>
    show s.Stays s.halt ∧ s.halt.running = s.halt.stuck
    rw [halt_of_not_running hr]
    exact hdone nofun
  | rewind =>
    show s.Stays s.halt.rewound ∧ s.halt.rewound.running = s.halt.rewound.stuck
    rw [halt_of_not_running hr]
    exact ⟨.of_move (.rewind s.machine) rfl rfl, hr.trans hk.symm⟩
  | terminate | pause | step | setVariable | restartFrame | evaluate => exact hdone nofun
  | lineBreakpoints | instBreakpoints | stopOnEntry | noDebug | name | suppress => cases hset

/-- **A stuck session stays stuck.** -/
theorem stuck_completed (h : s.stuck = true) (r : Request) : (s.completed r).stuck = true := by
  unfold completed
  rw [h, Bool.true_and]
  cases r with
  | play =>
    show (Request.play.complete s).stuck = true
    rcases complete_play s with he | ⟨started, hst, he⟩
    · rw [he]
      exact h
    · obtain ⟨-, -, rfl⟩ := start_eq_ok.1 hst
      have hidle : ({ s with running := true, runState := .running, exception := none } : Session).working = false := by
        rw [working, h]
        rfl
      rw [he, wait_of_not_working hidle]
      exact h
  | suppress | pause | step | lineBreakpoints | instBreakpoints | stopOnEntry | noDebug | name | halt | terminate |
    setVariable | restartFrame | evaluate | rewind => exact h

theorem stuck_through : ∀ (rs : List Request) {s : Session}, s.stuck = true → (s.through rs).stuck = true
  | [], _, h => h
  | r :: rs, _, h => stuck_through rs (stuck_completed h r)

/-! ## The same settings -/

/-- A session that was never played, only set. -/
structure Unplayed (s : Session) : Prop where
  runState : s.runState = .paused
  step : s.step = none
  exception : s.exception = none
  done : s.done = false
  entry : s.stopOnEntry = s.entryRequested
  running : s.running = false
  stuck : s.stuck = false
  events : s.events = []

theorem Unplayed.of_eq (h : s.Unplayed) (hstate : s'.runState = s.runState) (hstep : s'.step = s.step)
    (hexception : s'.exception = s.exception) (hdone : s'.done = s.done) (hentry : s'.stopOnEntry = s'.entryRequested)
    (hrunning : s'.running = s.running) (hstuck : s'.stuck = s.stuck) (hevents : s'.events = s.events) :
    s'.Unplayed :=
  ⟨hstate.trans h.runState, hstep.trans h.step, hexception.trans h.exception, hdone.trans h.done, hentry,
    hrunning.trans h.running, hstuck.trans h.stuck, hevents.trans h.events⟩

/-- Two sessions over one program with the same settings, of which no worker is live. -/
structure Matches (s f : Session) : Prop where
  stays : f.Stays s
  suspended : f.machine.suspended = []
  running : s.running = false

theorem setting_complete {s f : Session} {r : Request} (hset : r.isSetting = true) (h : s.Matches f) (hf : f.Unplayed) :
    (r.complete s).Matches (r.complete f) ∧ (r.complete f).Unplayed ∧ (r.complete f).machine = f.machine := by
  obtain ⟨⟨himage, hlimits, hsuspended, htable, hsettings⟩, hnone, hr⟩ := h
  -- A setting leaves the program and its table alone, so only the settings are left to compare.
  have hall : ∀ {r : Request}, (r.complete s).machine = s.machine → (r.complete f).machine = f.machine →
      (r.complete s).table = s.table → (r.complete f).table = f.table →
      (r.complete s).settings = (r.complete f).settings → (r.complete s).running = s.running →
      (r.complete s).Matches (r.complete f) := by
    intro r hms hmf hts htf hsame hrun
    refine ⟨⟨?_, ?_, ?_, ?_, hsame⟩, ?_, hrun.trans hr⟩
    · rw [hms, hmf, himage]
    · rw [hms, hmf, hlimits]
    · rw [hms, hmf, hsuspended]
    · rw [hts, htf, htable]
    · rw [hmf, hnone]
  simp only [settings, Settings.mk.injEq] at hsettings
  obtain ⟨hlines, hinsts, hdebug, hentry, hfile, hsup⟩ := hsettings
  cases r with
  | lineBreakpoints lines =>
    refine ⟨hall rfl rfl rfl rfl ?_ rfl, hf.of_eq rfl rfl rfl rfl hf.entry rfl rfl rfl, rfl⟩
    simp [Request.complete, Request.apply, setLineBreakpoints, settings, *]
  | instBreakpoints pcs =>
    refine ⟨hall rfl rfl rfl rfl ?_ rfl, hf.of_eq rfl rfl rfl rfl hf.entry rfl rfl rfl, rfl⟩
    simp [Request.complete, Request.apply, setInstBreakpoints, settings, *]
  | stopOnEntry =>
    refine ⟨hall rfl rfl rfl rfl ?_ rfl, hf.of_eq rfl rfl rfl rfl rfl rfl rfl rfl, rfl⟩
    simp [Request.complete, Request.apply, requestEntry, settings, *]
  | noDebug | name _ | suppress _ =>
    refine ⟨hall rfl rfl rfl rfl ?_ rfl, hf.of_eq rfl rfl rfl rfl hf.entry rfl rfl rfl, rfl⟩
    simp [Request.complete, Request.apply, settings, *]
  | play | pause | step | halt | terminate | setVariable | restartFrame | evaluate | rewind => cases hset

/-- **The settings of a session are those of a session on which only they were made**, if every operation has ended. -/
theorem matches_through : ∀ (history : List Request) {s f : Session}, (s.through history).stuck = false →
    s.Matches f → f.Unplayed →
    (s.through history).Matches (f.through (history.filter Request.isSetting)) ∧
      (f.through (history.filter Request.isSetting)).Unplayed ∧
      (f.through (history.filter Request.isSetting)).machine = f.machine
  | [], _, _, _, h, hf => ⟨h, hf, rfl⟩
  | r :: history, s, f, hends, h, hf => by
    have hafter : (s.completed r).stuck = false :=
      Bool.eq_false_iff.2 fun hk => Bool.eq_false_iff.1 hends (stuck_through history hk)
    have hbefore : s.stuck = false := Bool.eq_false_iff.2 fun hk => Bool.eq_false_iff.1 hafter (stuck_completed hk r)
    have hs : s.completed r = r.complete s := completed_of_not_stuck hbefore r
    cases hset : r.isSetting with
    | true =>
      obtain ⟨h₁, hf₁, hm⟩ := setting_complete hset h hf
      rw [← hs, ← completed_of_not_stuck hf.stuck r] at h₁
      rw [← completed_of_not_stuck hf.stuck r] at hf₁ hm
      obtain ⟨h₂, hf₂, hm₂⟩ := matches_through history hends h₁ hf₁
      rw [List.filter_cons_of_pos hset]
      exact ⟨h₂, hf₂, hm₂.trans hm⟩
    | false =>
      -- `f` stays where it is: the request is none of those that are made on it.
      obtain ⟨hstays, hr⟩ := stays_complete h.running hbefore hset
      rw [← hs] at hstays hr
      rw [List.filter_cons_of_neg (by simp [hset])]
      exact matches_through history hends ⟨h.stays.trans hstays, h.suspended, hr.trans hafter⟩ hf

/-- **A reset session is one that was never played,** but for its log, if that one starts the same program over the
world that the reset leaves. -/
theorem reset_eq {s f : Session} (h : s.Matches f) (hf : f.Unplayed) (hk : s.stuck = false)
    (hm : Machine.create? f.machine.image f.machine.limits s.reset.machine.world = some f.machine) :
    s.reset = f.logged s.events := by
  obtain ⟨⟨himage, hlimits, hsuspended, htable, hsettings⟩, hnone, hr⟩ := h
  have hreset : s.reset = s.requestHalt.rewound := congrArg rewound (halt_of_not_running hr)
  have hmachine : s.machine.rewind = f.machine := by
    have hworld : s.reset.machine.world = s.machine.rewind.world := by rw [hreset]; rfl
    rw [← himage, ← hlimits, hworld, Machine.rewind_eq (hsuspended.trans hnone)] at hm
    obtain ⟨_, -, heq⟩ := Option.map_eq_some_iff.1 hm
    exact heq
  simp only [settings, Settings.mk.injEq] at hsettings
  obtain ⟨hlines, hinsts, hdebug, hentry, hfile, hsup⟩ := hsettings
  obtain ⟨hstate, hstep, hexception, hdone, hstop, hrunning, hstuck, hevents⟩ := hf
  rw [hreset]
  cases f
  simp only [rewound, requestHalt, logged] at *
  simp only [*, List.append_nil]

/-- **Reset is a fresh start.**  After any history of operations that have ended, in whatever state it left the session,
a reset does nothing to the world but to write files out that the program alone held.  Over that world and the same
image and limits a new session can be made; once the settings of the history have been made on it, it goes the same way
as the reset one, whatever is asked of them: every answer is the same and every look, and the same is reported after what
had been reported. -/
theorem reset_is_fresh {image : Image} {limits : Limits} {world : World} {s₀ : Session}
    (h₀ : create? image limits world = some s₀) {history : List Request}
    (hends : (s₀.through history).stuck = false) :
    let s := s₀.through history
    let w := s.reset.machine.world
    (w.heap = s.machine.world.heap ∧ w.console = s.machine.world.console ∧ w.random = s.machine.world.random ∧
      w.files = s.machine.world.files) ∧
    ∃ fresh, create? image limits w = some fresh ∧ ∀ later : List Request,
      let a := s.reset.through later
      let b := (fresh.through (history.filter Request.isSetting)).through later
      a.events = s.events ++ b.events ∧ a.look = b.look ∧ (∀ r : Request, r.reply a = r.reply b) ∧
        a = b.logged s.events := by
  intro s w
  obtain ⟨table, htable, hmade⟩ := Option.bind_eq_some_iff.1 h₀
  obtain ⟨m₀, hm₀, heq⟩ := Option.bind_eq_some_iff.1 hmade
  cases heq
  obtain ⟨frame, hframe, rfl⟩ := Option.map_eq_some_iff.1 hm₀
  have hcreate : Machine.create? image limits w = some ⟨image, limits, 0, [frame], 0, none, [], [], w⟩ := by
    rw [Machine.create?, hframe]
    rfl
  let fresh : Session := { machine := ⟨image, limits, 0, [frame], 0, none, [], [], w⟩, table := table }
  have hfresh : create? image limits w = some fresh := by
    unfold create?
    rw [htable, hcreate]
    rfl
  -- `s₀` is over another world than `fresh`, and `Matches` does not look at that.
  have hstart : Matches { machine := ⟨image, limits, 0, [frame], 0, none, [], [], world⟩, table := table } fresh :=
    ⟨⟨rfl, rfl, rfl, rfl, rfl⟩, rfl, rfl⟩
  have hunplayed : fresh.Unplayed := ⟨rfl, rfl, rfl, rfl, rfl, rfl, rfl, rfl⟩
  obtain ⟨hmatches, hset, hmachine⟩ := matches_through history hends hstart hunplayed
  have hreset : s.reset = (fresh.through (history.filter Request.isSetting)).logged s.events :=
    reset_eq hmatches hset hends (by rw [hmachine]; exact hcreate)
  refine ⟨?_, fresh, hfresh, fun later => ?_⟩
  · have hw : w = s.machine.rewind.world := by
      show s.halt.rewound.machine.world = _
      rw [halt_of_not_running hmatches.running]
      rfl
    rw [hw]
    exact s.machine.rewind_world
  · intro a b
    have ha : a = b.logged s.events := by
      show s.reset.through later = _
      rw [hreset, through_logged]
    rw [ha]
    exact ⟨rfl, rfl, fun r => reply_logged r, rfl⟩

/-- A program is stopped at its entry and at a breakpoint, and a step is armed there. -/
def stoppedTwice : List Request := [.instBreakpoints [4], .stopOnEntry, .play, .play, .step .into .line]

/-- Reset from there, it is stopped at its entry and at the breakpoint again, and not by the step. -/
theorem reset_is_fresh_callOnce :
    let s := (Desk.callOnceSession 100).through stoppedTwice
    let a := s.reset.through [.play, .play]
    s.events = [.paused .entry, .paused .breakpoint] ∧ s.step.isSome = true ∧
    a.events = s.events ++ [.paused .entry, .paused .breakpoint] ∧
    ∃ fresh, create? Desk.callOnce { maxInstructions := 100 } s.reset.machine.world = some fresh ∧
      let b := (fresh.through [.instBreakpoints [4], .stopOnEntry]).through [.play, .play]
      a.events = s.events ++ b.events ∧ a.look = b.look := by
  intro s a
  have hends : s.stuck = false := by decide
  obtain ⟨-, fresh, hfresh, hsame⟩ := reset_is_fresh (Desk.create?_callOnce 100) hends
  obtain ⟨hevents, hlook, -, -⟩ := hsame [.play, .play]
  exact ⟨by decide, by decide, by decide, fresh, hfresh, hevents, hlook⟩

end Session

end PseudoVm
