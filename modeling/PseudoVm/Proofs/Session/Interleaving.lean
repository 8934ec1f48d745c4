import PseudoVm.Proofs.Session.Floor
/-!
# Session.Interleaving: requests to stop under every interleaving

Of the worker's place there is one, and whoever has it can be told from where its call or its work stands
(`Floor.Step.held`); so at most one worker is live.  A session that was asked to stop for good stays so until it is
rewound, and a worker that finds it so executes nothing (`Floor.Step.final`).
-/
namespace PseudoVm

namespace Session

/-! ## Sections of a session -/

variable {s s' : Session}

theorem tick_machine (s : Session) : s.tick.2.machine = if s.executes then s.machine.step.2 else s.machine := by
  unfold tick executes
  by_cases hr : s.runState = .running
  · rw [if_neg (not_not_intro hr), hr]
    cases s.machine.isDone with
    | true => rfl
    | false =>
      cases s.stepEnds with
      | true => rfl
      | false =>
        simp only [Bool.false_eq_true, if_false, beq_self_eq_true, Bool.not_false, Bool.and_self, if_true]
        cases s.machine.step.1 with
        | none =>
          dsimp only
          unfold afterStep
          split
          · rfl
          split <;> rfl
        | some stop =>
          dsimp only
          cases s.machine.step.2.explain stop with
          | error a => cases a <;> rfl
          | ok p =>
            dsimp only
            unfold failed
            split <;> rfl
  · rw [if_pos hr, beq_eq_false_iff_ne.2 hr]
    rfl

theorem grant_fixed (s : Session) : s.grant.2.running = s.running ∧ s.grant.2.events = s.events ∧
    s.grant.2.suppressed = s.suppressed := by
  unfold grant
  cases s.refusal? <;> exact ⟨rfl, rfl, rfl⟩

theorem refusal?_of_isFinal (h : s.runState.isFinal = true) : s.refusal? ≠ none := by
  intro hf
  obtain ⟨-, hh, ht⟩ := refusal?_eq_none.1 hf
  cases hs : s.runState with
  | halted => exact hh hs
  | terminated => exact ht hs
  | running | paused => rw [hs] at h; cases h

theorem grant_of_isFinal (h : s.runState.isFinal = true) : ∃ e, s.grant = (some e, s) := by
  unfold grant
  cases hf : s.refusal? with
  | none => exact absurd hf (refusal?_of_isFinal h)
  | some e => exact ⟨e, rfl⟩

/-- **What a request of one section can do** to the life of a session: ask it to pause, and have reports dropped. -/
structure Tunes (r : Request) (s s' : Session) : Prop where
  running : s'.running = s.running
  events : s'.events = s.events
  suppressed : (∀ on, r ≠ .suppress on) → s'.suppressed = s.suppressed
  runState : s'.runState = s.runState ∨ s.runState = .running ∧ s'.runState = .paused

theorem Tunes.of_eq {r : Request} (hr : s'.running = s.running) (he : s'.events = s.events)
    (hp : s'.suppressed = s.suppressed) (hs : s'.runState = s.runState) : Tunes r s s' := ⟨hr, he, fun _ => hp, .inl hs⟩

theorem tunes_pause (s : Session) : Tunes .pause s s.pause := by
  unfold pause
  split
  · exact .of_eq rfl rfl rfl rfl
  · rename_i h
    refine ⟨rfl, rfl, fun _ => rfl, .inr ⟨?_, rfl⟩⟩
    rw [Bool.or_eq_true_iff, not_or] at h
    simpa using h.2

theorem tunes_apply {r : Request} (hr : r.isSection = true) (s : Session) : Tunes r s (r.apply s) := by
  cases r with
  | pause => exact tunes_pause s
  | step kind granularity =>
    rw [Request.apply, armStep]
    split <;> exact .of_eq rfl rfl rfl rfl
  | setVariable id which v =>
    rw [Request.apply, setVariable]
    split
    · cases s.machine.assign (which.cell (id - 1)) v <;> exact .of_eq rfl rfl rfl rfl
    · exact .of_eq rfl rfl rfl rfl
  | restartFrame id =>
    rw [Request.apply, restartFrame]
    split
    · exact .of_eq rfl rfl rfl rfl
    split
    · exact .of_eq rfl rfl rfl rfl
    cases s.machine.restartFrame? id <;> exact .of_eq rfl rfl rfl rfl
  | evaluate id code =>
    rw [Request.apply, evaluate]
    split <;> exact .of_eq rfl rfl rfl rfl
  | suppress on => exact ⟨rfl, rfl, fun hs => absurd rfl (hs on), .inl rfl⟩
  | lineBreakpoints | instBreakpoints | stopOnEntry | noDebug | name => exact .of_eq rfl rfl rfl rfl
  | play | halt | terminate | rewind => cases hr

theorem Tunes.isFinal {r : Request} (h : Tunes r s s') (hf : s.runState.isFinal = true) : s'.runState = s.runState := by
  rcases h.runState with hs | ⟨hr, -⟩
  · exact hs
  · rw [hr] at hf
    cases hf

theorem requestTerminate_of_isFinal (h : s.runState.isFinal = true) : s.requestTerminate = (none, s) := by
  unfold requestTerminate
  rw [h, Bool.or_true, if_pos rfl]

theorem requestTerminate_fixed (s : Session) : s.requestTerminate.2.running = s.running ∧
    s.requestTerminate.2.events = s.events ∧ s.requestTerminate.2.suppressed = s.suppressed := by
  unfold requestTerminate
  split <;> exact ⟨rfl, rfl, rfl⟩

theorem isFinal_requestHalt (s : Session) : s.requestHalt.runState.isFinal = true := by
  unfold requestHalt
  dsimp only
  split <;> rfl

section Emit

variable (s : Session) (e : Event)

@[simp] theorem emit_machine : (s.emit e).machine = s.machine := by unfold emit; split <;> rfl

@[simp] theorem emit_runState : (s.emit e).runState = s.runState := by unfold emit; split <;> rfl

@[simp] theorem emit_running : (s.emit e).running = s.running := by unfold emit; split <;> rfl

@[simp] theorem emit_suppressed : (s.emit e).suppressed = s.suppressed := by unfold emit; split <;> rfl

end Emit

/-! ## Turns of a worker -/

theorem afterTurn_machine (s : Session) (r : Option Outcome × Session) : (s.afterTurn r).2.machine = r.2.machine := by
  obtain ⟨o, s'⟩ := r
  cases o with
  | none => rfl
  | some o => cases o <;> rfl

theorem enter_machine (s : Session) : s.enter.2.machine = s.machine := by
  unfold enter
  split
  · rfl
  split
  · dsimp only
    split <;> rfl
  · rfl

theorem afterTurn_stopped (s : Session) : s.afterTurn (some (stoppedOutcome s.runState), s) =
    (.telling (eventsOf (stoppedOutcome s.runState)), s.conclude (stoppedOutcome s.runState)) := by
  cases s.runState <;> rfl

theorem ne_running_of_isFinal (h : s.runState.isFinal = true) : s.runState ≠ .running := by
  intro hr
  rw [hr] at h
  cases h

/-- **A worker that finds the session stopped for good has its last section.** -/
theorem afterTurn_tick_of_isFinal (h : s.runState.isFinal = true) : s.afterTurn s.tick =
    (.telling (eventsOf (stoppedOutcome s.runState)), s.conclude (stoppedOutcome s.runState)) := by
  rw [tick_of_not_running (ne_running_of_isFinal h), afterTurn_stopped]

theorem afterTurn_enter_of_isFinal (h : s.runState.isFinal = true) : s.afterTurn s.enter =
    (.telling (eventsOf (stoppedOutcome s.runState)), s.conclude (stoppedOutcome s.runState)) := by
  rw [enter_of_not_running (ne_running_of_isFinal h), afterTurn_stopped]

/-- **What a turn does to a worker**: it stays live, or has its last section, in which it gives up its place. -/
inductive Turned (s : Session) : Phase × Session → Prop
  | goesOn {s' : Session} (hr : s'.running = s.running) (he : s'.events = s.events)
      (hp : s'.suppressed = s.suppressed) : Turned s (.active, s')
  | breaks {s' : Session} (hr : s'.running = s.running) (he : s'.events = s.events)
      (hp : s'.suppressed = s.suppressed) : Turned s (.broken, s')
  | ends {s' : Session} {o : Outcome} (hc : o ≠ .crashed) (hh : o ≠ .hung) (hs : Section s (some o) s') :
    Turned s (.telling (eventsOf o), s'.conclude o)

theorem turned_of_section {o : Option Outcome} (h : Section s o s') : Turned s (s.afterTurn (o, s')) := by
  obtain ⟨he, hp, -, hr⟩ := h.fixed
  cases o with
  | none => exact .goesOn hr he hp
  | some o =>
    cases o with
    | crashed => exact .breaks hr he hp
    | hung => exact .goesOn hr he hp
    | paused | exception | failed | finished | terminated | halted => exact .ends nofun nofun h

theorem turned_tick (s : Session) : Turned s (s.afterTurn s.tick) := turned_of_section s.section_tick

theorem turned_enter (s : Session) : Turned s (s.afterTurn s.enter) := turned_of_section s.section_enter

end Session

/-! ## Weights -/

/-- What the members of a list weigh together. -/
def weigh {α : Type} (weight : α → Nat) : List α → Nat
  | [] => 0
  | x :: l => weight x + weigh weight l

theorem weigh_append {α : Type} (weight : α → Nat) (k : List α) :
    ∀ l : List α, weigh weight (l ++ k) = weigh weight l + weigh weight k
  | [] => (Nat.zero_add _).symm
  | x :: l => by rw [List.cons_append, weigh, weigh, weigh_append weight k l, Nat.add_assoc]

theorem exists_weigh_eq {α : Type} (weight : α → Nat) {x : α} : ∀ {l : List α} {i : Nat}, l[i]? = some x →
    ∃ rest, weigh weight l = rest + weight x ∧ ∀ y, weigh weight (l.set i y) = rest + weight y
  | [], _, h => by cases h
  | z :: l, 0, h => by
    cases h
    exact ⟨weigh weight l, Nat.add_comm _ _, fun y => Nat.add_comm _ _⟩
  | z :: l, i + 1, h => by
    obtain ⟨rest, hweigh, hset⟩ := exists_weigh_eq weight (l := l) (i := i) h
    refine ⟨weight z + rest, ?_, fun y => ?_⟩
    · rw [weigh, hweigh, Nat.add_assoc]
    · rw [List.set_cons_succ, weigh, hset, Nat.add_assoc]

theorem weigh_eq_zero_iff {α : Type} {weight : α → Nat} {l : List α} :
    weigh weight l = 0 ↔ ∀ x ∈ l, weight x = 0 := by
  induction l with
  | nil => simp [weigh]
  | cons x l ih => rw [weigh, Nat.add_eq_zero_iff, ih, List.forall_mem_cons]

theorem weigh_add {α : Type} {a b c : α → Nat} (h : ∀ x, c x = a x + b x) (l : List α) :
    weigh c l = weigh a l + weigh b l := by
  induction l with
  | nil => rfl
  | cons x l ih =>
    simp only [weigh, h, ih]
    omega

theorem weight_le_weigh {α : Type} {weight : α → Nat} {l : List α} {i : Nat} {x : α} (h : l[i]? = some x) :
    weight x ≤ weigh weight l := by
  obtain ⟨rest, hweigh, -⟩ := exists_weigh_eq weight h
  omega

namespace CallSection.Does

variable {home : Option Nat} {workers : List Phase} {c : CallSection} {x y : Stage} {s s' : Session} {h h' : Option Nat}

/-- **A section of a call moves the worker's place and never makes another.** -/
theorem held (hc : Does home workers c x s h y s' h') (hx : x.holds ≤ s.running.toNat) :
    y.holds + weigh Phase.live c.hired + s.running.toNat = x.holds + s'.running.toNat := by
  cases hc with
  | asks hr => rw [(Session.tunes_apply hr s).running]; rfl
  | reserves hs =>
    obtain ⟨hr, rfl⟩ := Session.reserve?_eq_some.1 hs
    rw [hr]
    rfl
  | grants hs | refuses hs =>
    have hr := s.grant_fixed.1
    rw [hs] at hr
    rw [show s'.running = s.running from hr]
    rfl
  | givesBack | startFails =>
    -- the call has the place, so it is marked as taken
    have hr : s.running = true := by
      cases hr : s.running with
      | true => rfl
      | false => rw [hr] at hx; cases hx
    rw [hr]
    rfl
  | endsIt hs | leavesIt hs =>
    have hr := s.requestTerminate_fixed.1
    rw [hs] at hr
    rw [show s'.running = s.running from hr]
    rfl
  | tells => rw [Session.emit_running]; rfl
  | @awaits p => cases p <;> rfl
  | @findsNone p | @joins p | @putsBack p => cases p <;> rfl
  | comesLate | starts | finds | findsOwn | rewinds => rfl

/-- **A session that is to stop for good stays so until it is rewound.** -/
theorem final (hc : Does home workers c x s h y s' h') (hw : c ≠ .rewind)
    (hf : s.runState.isFinal = true) : s'.runState.isFinal = true := by
  cases hc with
  | asks hr => rw [(Session.tunes_apply hr s).isFinal hf]; exact hf
  | reserves hs =>
    obtain ⟨-, rfl⟩ := Session.reserve?_eq_some.1 hs
    exact hf
  | grants hs =>
    obtain ⟨e, hg⟩ := Session.grant_of_isFinal hf
    rw [hg] at hs
    cases hs
  | refuses hs =>
    obtain ⟨e, hg⟩ := Session.grant_of_isFinal hf
    rw [hg] at hs
    cases hs
    exact hf
  | endsIt hs =>
    rw [Session.requestTerminate_of_isFinal hf] at hs
    cases hs
  | leavesIt hs =>
    rw [Session.requestTerminate_of_isFinal hf] at hs
    cases hs
    exact hf
  | tells => rw [Session.emit_runState]; exact hf
  | @awaits p =>
    cases p with
    | wait => exact hf
    | halt | reset => exact s.isFinal_requestHalt
  | rewinds => exact absurd rfl hw
  | comesLate | givesBack | starts | startFails | findsNone | finds | findsOwn | joins | putsBack => exact hf

end CallSection.Does

namespace WorkSection.Does

variable {k : WorkSection} {p : Phase} {s : Session} {r : Phase × Session}

/-- **A worker has its place until its last section**, and then nobody has it. -/
theorem held (hk : Does k p s r) (hp : p.live ≤ s.running.toNat) :
    r.1.live + s.running.toNat = p.live + r.2.running.toNat := by
  have hone : 1 ≤ s.running.toNat → s.running.toNat = 1 := Nat.le_antisymm s.running.toNat_le
  have hturn : ∀ {r : Phase × Session}, 1 ≤ s.running.toNat → Session.Turned s r →
      r.1.live + s.running.toNat = 1 + r.2.running.toNat := by
    intro r hr ht
    cases ht with
    | goesOn hr | breaks hr => rw [hr]; rfl
    | ends _ hh =>
      rw [Session.conclude_running _ _ hh, hone hr]
      rfl
  cases hk with
  | enters => exact hturn hp s.turned_enter
  | ticks => exact hturn hp s.turned_tick
  | clearsUp =>
    rw [hone hp]
    rfl
  | reports => rw [Session.emit_running]; rfl
  | goesOn => rfl

/-- **A worker executes an instruction exactly in the sections that say so**, and does nothing else to the program. -/
theorem machine (hk : Does k p s r) (w : Nat) :
    r.2.machine = if (Move.work w k).executes then s.machine.step.2 else s.machine := by
  cases hk with
  | enters => rw [Session.afterTurn_machine, Session.enter_machine]; rfl
  | ticks => rw [Session.afterTurn_machine, Session.tick_machine]; rfl
  | reports => exact Session.emit_machine _ _
  | clearsUp | goesOn => rfl

/-- **A worker that finds the session stopped for good executes nothing and leaves it so.** -/
theorem final (hk : Does k p s r) (hf : s.runState.isFinal = true) :
    r.2.runState.isFinal = true ∧ ∀ w, (Move.work w k).executes = false := by
  cases hk with
  | enters =>
    rw [Session.afterTurn_enter_of_isFinal hf, Session.conclude_runState]
    exact ⟨hf, fun _ => rfl⟩
  | ticks =>
    have he : s.executes = false := by
      unfold Session.executes
      rw [beq_eq_false_iff_ne.2 (Session.ne_running_of_isFinal hf)]
      rfl
    rw [Session.afterTurn_tick_of_isFinal hf, Session.conclude_runState, he]
    exact ⟨hf, fun _ => rfl⟩
  | clearsUp => exact ⟨rfl, fun _ => rfl⟩
  | reports =>
    rw [Session.emit_runState]
    exact ⟨hf, fun _ => rfl⟩
  | goesOn => exact ⟨hf, fun _ => rfl⟩

end WorkSection.Does

namespace Floor

variable {f g : Floor} {m : Move} {moves : List Move}

/-! ## The worker's place -/

/-- What the calls under way and the workers weigh together. -/
def total (f : Floor) (a : Stage → Nat) (b : Phase → Nat) : Nat := weigh a f.calls + weigh b f.workers

/-- **A section of a call changes the weight of that call**, and adds that of a worker who is started. -/
theorem total_call {i : Nat} {x y : Stage} (hi : f.calls[i]? = some x) (s : Session) (ps : List Phase) (h : Option Nat)
    (a : Stage → Nat) (b : Phase → Nat) :
    total { f with session := s, calls := f.calls.set i y, workers := f.workers ++ ps, handle := h } a b + a x =
      f.total a b + (a y + weigh b ps) := by
  obtain ⟨rest, hweigh, hset⟩ := exists_weigh_eq a hi
  simp only [total, weigh_append, hweigh, hset]
  omega

theorem total_work {w : Nat} {p q : Phase} (hw : f.workers[w]? = some p) (s : Session) (a : Stage → Nat)
    (b : Phase → Nat) :
    total { f with session := s, workers := f.workers.set w q } a b + b p = f.total a b + b q := by
  obtain ⟨rest, hweigh, hset⟩ := exists_weigh_eq b hw
  simp only [total, hweigh, hset]
  omega

/-- **Somebody has the worker's place exactly if it is marked as taken.** -/
def Held (f : Floor) : Prop := f.total Stage.holds Phase.live = f.session.running.toNat

theorem Held.call {i : Nat} {x : Stage} (h : f.Held) (hi : f.calls[i]? = some x) :
    x.holds ≤ f.session.running.toNat := by
  have hle : x.holds ≤ weigh Stage.holds f.calls := weight_le_weigh hi
  unfold Held total at h
  omega

theorem Held.work {w : Nat} {p : Phase} (h : f.Held) (hw : f.workers[w]? = some p) :
    p.live ≤ f.session.running.toNat := by
  have hle : p.live ≤ weigh Phase.live f.workers := weight_le_weigh hw
  unfold Held total at h
  omega

theorem Step.held (hs : Step f m g) (h : f.Held) : g.Held := by
  cases hs with
  | @call i c x y s handle hi hc =>
    have hplace := hc.held (h.call hi)
    have htotal := total_call (y := y) hi s c.hired handle Stage.holds Phase.live
    unfold Held at h ⊢
    dsimp only
    omega
  | @work w k p q s hw hk =>
    have hplace := hk.held (h.work hw)
    have htotal := total_work (q := q) hw s Stage.holds Phase.live
    unfold Held at h ⊢
    dsimp only at hplace ⊢
    omega

theorem Held.live_unique (h : f.Held) {v w : Nat} (hv : f.Live v) (hw : f.Live w) : v = w := by
  obtain ⟨p, hp, hpl⟩ := hv
  obtain ⟨q, hq, hql⟩ := hw
  refine Decidable.byContradiction fun hne => ?_
  -- without the one worker the other still weighs
  obtain ⟨rest, hweigh, hset⟩ := exists_weigh_eq Phase.live hp
  have hother : (f.workers.set v (.telling []))[w]? = some q := by rw [List.getElem?_set_ne hne, hq]
  have hle : q.live ≤ rest + Phase.live (.telling []) := hset _ ▸ weight_le_weigh hother
  have hzero : Phase.live (.telling []) = 0 := rfl
  have hone : f.session.running.toNat ≤ 1 := Bool.toNat_le _
  unfold Held total at h
  omega

/-- **A session that is to stop for good stays so until it is rewound, and no instruction is executed.** -/
theorem Step.final (hs : Step f m g) (hm : m.rewinds = false) (hf : f.session.runState.isFinal = true) :
    g.session.runState.isFinal = true ∧ m.executes = false := by
  cases hs with
  | call hi hc =>
    refine ⟨hc.final (fun hc => ?_) hf, rfl⟩
    rw [hc] at hm
    cases hm
  | work hw hk =>
    obtain ⟨hg, he⟩ := hk.final hf
    exact ⟨hg, he _⟩

theorem Step.machine {w : Nat} {k : WorkSection} (hs : Step f (.work w k) g) :
    g.session.machine = if (Move.work w k).executes then f.session.machine.step.2 else f.session.machine := by
  cases hs with
  | work hw hk => exact hk.machine w

theorem Step.final_of_halt {i : Nat} {p : Purpose} (hs : Step f (.call i (.await p)) g) (hp : p ≠ .wait) :
    g.session.runState.isFinal = true := by
  cases hs with
  | call _ hc =>
    cases hc with
    | awaits =>
      cases p with
      | wait => exact absurd rfl hp
      | halt | reset => exact f.session.isFinal_requestHalt

theorem Step.final_of_terminate {i : Nat} (hs : Step f (.call i .terminate) g) (hn : f.session.noDebug = false) :
    g.session.runState.isFinal = true := by
  have hfinal : f.session.requestTerminate.2.runState.isFinal = true := by
    unfold Session.requestTerminate
    rw [hn, Bool.false_or]
    split
    · rename_i h
      exact h
    · rfl
  cases hs with
  | call _ hc =>
    cases hc with
    | endsIt hs | leavesIt hs =>
      rw [hs] at hfinal
      exact hfinal

/-! ## Interleavings -/

theorem held_of {s : Session} (hr : s.running = false) (n : Nat) (home : Nat → Option Nat) : (of s n home).Held := by
  have hidle : weigh Stage.holds (List.replicate n .idle) = 0 := by
    refine weigh_eq_zero_iff.2 fun x hx => ?_
    rw [List.eq_of_mem_replicate hx]
    rfl
  simp [Held, total, of, hr, hidle, weigh]

theorem Held.run (h : f.Held) (hr : f.run? moves = some g) : g.Held :=
  (run?_keeps (fun _ _ _ _ hs h => ⟨hs.held h, trivial⟩) hr h).1

/-- **The place is kept by every floor that comes of a session.** -/
theorem held_of_create? {image : Image} {limits : Limits} {world : World} {s₀ : Session} {n : Nat}
    {home : Nat → Option Nat} (h₀ : Session.create? image limits world = some s₀)
    (hr : (of s₀ n home).run? moves = some f) : f.Held := by
  obtain ⟨-, hs⟩ := Session.create?_eq h₀
  exact (held_of (by rw [hs]) n home).run hr

theorem final_of_run? (hr : f.run? moves = some g) (hm : ∀ m ∈ moves, m.rewinds = false)
    (hf : f.session.runState.isFinal = true) :
    g.session.runState.isFinal = true ∧ ∀ m ∈ moves, m.executes = false :=
  run?_keeps (P := fun f => f.session.runState.isFinal = true) (fun _ m _ hmem hs hf => hs.final (hm m hmem) hf) hr hf

/-- **Requests to stop are respected under every interleaving** of the sections of any number of controllers and of the
workers they start, some of the controllers at home in reports.  At most one worker is between its start and its last
section.  A halt, a reset, and a termination of a program that is debugged leave the session stopped for good; from
there, until a reset puts the program back, it stays so and no worker executes an instruction. -/
theorem stop_requests_respected {image : Image} {limits : Limits} {world : World} {s₀ : Session}
    (h₀ : Session.create? image limits world = some s₀) (n : Nat) (home : Nat → Option Nat) (history : List Move)
    (hf : (of s₀ n home).run? history = some f) :
    (∀ v w, f.Live v → f.Live w → v = w) ∧
    (∀ w k g, f.perform? (.work w k) = some g →
      g.session.machine = if (Move.work w k).executes then f.session.machine.step.2 else f.session.machine) ∧
    (∀ i p g, f.perform? (.call i (.await p)) = some g → p ≠ .wait → g.session.runState.isFinal = true) ∧
    (∀ i g, f.perform? (.call i .terminate) = some g → f.session.noDebug = false →
      g.session.runState.isFinal = true) ∧
    (f.session.runState.isFinal = true → ∀ later last, f.run? later = some last → (∀ m ∈ later, m.rewinds = false) →
      last.session.runState.isFinal = true ∧ ∀ m ∈ later, m.executes = false) := by
  have hlive : ∀ v w, f.Live v → f.Live w → v = w := fun v w hv hw => (held_of_create? h₀ hf).live_unique hv hw
  refine ⟨hlive, fun w k g hs => (step_of_perform? hs).machine,
    fun i p g hs hp => (step_of_perform? hs).final_of_halt hp,
    fun i g hs hn => (step_of_perform? hs).final_of_terminate hn, ?_⟩
  intro hfinal later last hlater hrewind
  exact final_of_run? hlater hrewind hfinal

/-- A program is played by one controller and halted by another after its first instruction. -/
def haltMidway : List Move :=
  [.call 0 .reserve, .call 0 .request, .call 0 .start, .work 0 (.turn false), .work 0 (.turn true),
    .call 1 (.await .halt)]

/-- There the worker is live, executes no other instruction, and the halt waits for its end. -/
theorem stop_requests_respected_callOnce :
    ∃ f, (of (Desk.callOnceSession 100) 2 fun _ => none).run? haltMidway = some f ∧ f.workers = [.active] ∧
      f.session.runState = .halted ∧
      (∃ last, f.run? [.call 0 .reserve, .call 1 .seek, .work 0 (.turn false), .call 1 .join] = some last ∧
        last.calls = [.idle, .idle] ∧ last.workers = [.telling []]) ∧
      ∀ later last, f.run? later = some last → (∀ m ∈ later, m.rewinds = false) →
        last.session.runState.isFinal = true ∧ ∀ m ∈ later, m.executes = false := by
  refine ⟨_, rfl, rfl, rfl, ⟨_, rfl, rfl, rfl⟩, ?_⟩
  exact (stop_requests_respected (Desk.create?_callOnce 100) 2 (fun _ => none) haltMidway rfl).2.2.2.2 rfl

end Floor

end PseudoVm
