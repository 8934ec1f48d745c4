import PseudoVm.Proofs.Session.Interleaving
/-!
# Session.TerminateReport: who reports a termination

A termination that finds the worker's place taken leaves the report to whoever has it.  A worker at its instructions
makes the report, and so does one that a granted play is about to start; a play that is still to be granted, or was
refused, and a worker that broke down do not.  `Floor.owed` counts the reports that are under way and `Floor.expected`
those that a live worker will make of a terminated session; no section changes their sum with what was reported.
-/
namespace PseudoVm

namespace Stage

/-- Reports of an end that a call has still to make. -/
def owes : Stage → Nat
  | .telling => 1
  | _ => 0

/-- Workers that a call is about to start. -/
def hires : Stage → Nat
  | .granted => 1
  | _ => 0

/-- Whether a call has the worker's place for no worker. -/
def strays : Stage → Nat
  | .reserved | .refused => 1
  | _ => 0

theorem holds_eq (x : Stage) : x.holds = x.hires + x.strays := by cases x <;> rfl

end Stage

namespace Phase

def owes : Phase → Nat
  | .telling es | .heard es => es.count .terminated
  | _ => 0

/-- Whether a worker is at its instructions. -/
def works : Phase → Nat
  | .fresh | .active => 1
  | _ => 0

def strays : Phase → Nat
  | .broken => 1
  | _ => 0

theorem owes_telling_cons (e : Event) (es : List Event) :
    (telling (e :: es)).owes = [e].count .terminated + (heard es).owes := by
  have happend : e :: es = [e] ++ es := rfl
  simp only [owes, happend, List.count_append]

theorem live_eq (p : Phase) : p.live = p.works + p.strays := by cases p <;> rfl

end Phase

namespace Move

/-- Whether the reports to come are dropped or no longer dropped. -/
def mutes : Move → Bool
  | .call _ (.ask (.suppress _)) => true
  | _ => false

/-- Whether a worker cannot be started. -/
def fails : Move → Bool
  | .call _ .startFails => true
  | _ => false

end Move

namespace Session

variable {s s' : Session} {o : Outcome}

/-- How often the end was reported. -/
def told (s : Session) : Nat := s.events.count .terminated

theorem told_eq (h : s'.events = s.events) : s'.told = s.told := by rw [told, told, h]

theorem told_emit (h : s.suppressed = false) (e : Event) : (s.emit e).told = s.told + [e].count .terminated := by
  have hemit : s.emit e = { s with events := s.events ++ [e] } := by
    unfold emit
    rw [h, if_neg Bool.false_ne_true]
  rw [hemit, told, told, List.count_append]

theorem count_eventsOf (h : Section s (some o) s') (hf : s'.runState.isFinal = false) :
    (eventsOf o).count .terminated = 0 := by
  cases h with
  | givesWay hr =>
    cases hs : s.runState with
    | running | paused => rfl
    | halted | terminated => rw [hs] at hf; cases hf
  | pauses | breaks | excepts | hangs => rfl
  | ends | finishes | fails | crashes => cases hf

theorem runState_requestTerminate {live : Bool} (h : s.requestTerminate = (some live, s')) :
    s'.runState = .terminated := by
  unfold requestTerminate at h
  split at h
  · cases h
  · cases h
    rfl

theorem requestTerminate_of_playable (hn : s.noDebug = false) (hf : s.runState.isFinal = false) :
    s.requestTerminate = (some s.running, { s with runState := .terminated, step := none }) := by
  have heffect : (s.noDebug || s.runState.isFinal) = false := by rw [hn, hf]; rfl
  exact if_neg (Bool.eq_false_iff.1 heffect)

theorem afterTurn_of_terminated (h : s.runState = .terminated) :
    s.afterTurn s.enter = (.telling [.terminated], s.conclude .terminated) ∧
    s.afterTurn s.tick = (.telling [.terminated], s.conclude .terminated) := by
  have hf : s.runState.isFinal = true := by rw [h]; rfl
  rw [afterTurn_enter_of_isFinal hf, afterTurn_tick_of_isFinal hf, h]
  exact ⟨rfl, rfl⟩

end Session

namespace CallSection.Does

variable {home : Option Nat} {workers : List Phase} {c : CallSection} {x y : Stage} {s s' : Session} {h h' : Option Nat}

theorem suppressed (hc : Does home workers c x s h y s' h') (hm : ∀ on, c ≠ .ask (.suppress on)) :
    s'.suppressed = s.suppressed := by
  cases hc with
  | asks hr => exact (Session.tunes_apply hr s).suppressed fun on hs => hm on (congrArg _ hs)
  | reserves hs =>
    obtain ⟨-, rfl⟩ := Session.reserve?_eq_some.1 hs
    rfl
  | grants hs | refuses hs =>
    have hg := s.grant_fixed.2.2
    rw [hs] at hg
    exact hg
  | endsIt hs | leavesIt hs =>
    have hg := s.requestTerminate_fixed.2.2
    rw [hs] at hg
    exact hg
  | tells => exact Session.emit_suppressed _ _
  | @awaits p => cases p <;> rfl
  | comesLate | givesBack | starts | startFails | findsNone | finds | findsOwn | joins | putsBack | rewinds => rfl

/-- **While the session can be played on, a call reports an end only if it owes that.** -/
theorem owes_of_playable (hc : Does home workers c x s h y s' h') (hp : s.suppressed = false)
    (hf : s'.runState.isFinal = false) : s'.told + y.owes = s.told + x.owes := by
  cases hc with
  | asks hr => rw [Session.told_eq (Session.tunes_apply hr s).events]
  | reserves hs =>
    obtain ⟨-, rfl⟩ := Session.reserve?_eq_some.1 hs
    rfl
  | grants hs | refuses hs =>
    have hg := s.grant_fixed.2.1
    rw [hs] at hg
    rw [Session.told_eq hg]
    rfl
  | endsIt hs =>
    rw [Session.runState_requestTerminate hs] at hf
    cases hf
  | leavesIt hs =>
    have hg := s.requestTerminate_fixed.2.1
    rw [hs] at hg
    rw [Session.told_eq hg]
  | tells => rw [Session.told_emit hp]; rfl
  | @awaits p => cases p <;> rfl
  | @findsNone p | @joins p | @putsBack p => cases p <;> rfl
  | comesLate | givesBack | starts | startFails | finds | findsOwn | rewinds => rfl

/-- **In a terminated session no call owes more or less**, those included that are to start a worker. -/
theorem owes_of_terminated (hc : Does home workers c x s h y s' h') (hp : s.suppressed = false) (hw : c ≠ .rewind)
    (hs : c ≠ .startFails) (ht : s.runState = .terminated) : s'.runState = .terminated ∧
      s'.told + (y.owes + y.hires + weigh Phase.works c.hired) = s.told + (x.owes + x.hires) := by
  have hf : s.runState.isFinal = true := by rw [ht]; rfl
  cases hc with
  | asks hr =>
    have htunes := Session.tunes_apply hr s
    rw [htunes.isFinal hf, Session.told_eq htunes.events]
    exact ⟨ht, rfl⟩
  | reserves hs =>
    obtain ⟨-, rfl⟩ := Session.reserve?_eq_some.1 hs
    exact ⟨ht, rfl⟩
  | grants hg =>
    obtain ⟨e, hr⟩ := Session.grant_of_isFinal hf
    rw [hr] at hg
    cases hg
  | refuses hg =>
    obtain ⟨e, hr⟩ := Session.grant_of_isFinal hf
    rw [hr] at hg
    cases hg
    exact ⟨ht, rfl⟩
  | endsIt hg =>
    rw [Session.requestTerminate_of_isFinal hf] at hg
    cases hg
  | leavesIt hg =>
    rw [Session.requestTerminate_of_isFinal hf] at hg
    cases hg
    exact ⟨ht, rfl⟩
  | tells =>
    rw [Session.emit_runState, Session.told_emit hp]
    exact ⟨ht, rfl⟩
  | @awaits p =>
    cases p with
    | wait => exact ⟨ht, rfl⟩
    | halt | reset => exact ⟨if_pos ht, rfl⟩
  -- here a report would be lost
  | startFails => exact absurd rfl hs
  | rewinds => exact absurd rfl hw
  | @findsNone p | @joins p | @putsBack p => exact ⟨ht, by cases p <;> rfl⟩
  | comesLate | givesBack | starts | finds | findsOwn => exact ⟨ht, rfl⟩

/-- **A termination is owed by the call if nobody has the worker's place**, and else left to who has it. -/
theorem terminates (hc : Does home workers .terminate x s h y s' h') (hn : s.noDebug = false)
    (hf : s.runState.isFinal = false) : s'.runState = .terminated ∧ s'.told = s.told ∧
      y.owes + s.running.toNat = x.owes + 1 ∧ y.hires = x.hires := by
  have heffect := Session.requestTerminate_of_playable hn hf
  cases hc with
  | endsIt hs =>
    rw [heffect] at hs
    obtain ⟨hr, rfl⟩ := Prod.mk.inj hs
    have hrunning : s.running = false := Option.some.inj hr
    refine ⟨rfl, rfl, ?_, rfl⟩
    rw [hrunning]
    rfl
  | leavesIt hs hl =>
    rw [heffect] at hs
    obtain ⟨rfl, rfl⟩ := Prod.mk.inj hs
    have hrunning : s.running = true := by
      cases hr : s.running with
      | true => rfl
      | false => rw [hr] at hl; exact absurd rfl hl
    refine ⟨rfl, rfl, ?_, rfl⟩
    rw [hrunning]
    rfl

end CallSection.Does

namespace WorkSection.Does

variable {k : WorkSection} {p : Phase} {s : Session} {r : Phase × Session}

theorem suppressed (hk : Does k p s r) : r.2.suppressed = s.suppressed := by
  have hturn : ∀ {r : Phase × Session}, Session.Turned s r → r.2.suppressed = s.suppressed := by
    intro r ht
    cases ht with
    | goesOn _ _ hp | breaks _ _ hp => exact hp
    | ends _ _ hs => rw [Session.conclude_suppressed, hs.fixed.2.1]
  cases hk with
  | enters => exact hturn s.turned_enter
  | ticks => exact hturn s.turned_tick
  | reports => exact Session.emit_suppressed _ _
  | clearsUp | goesOn => rfl

theorem owes_of_playable (hk : Does k p s r) (hp : s.suppressed = false) (hf : r.2.runState.isFinal = false) :
    r.2.told + r.1.owes = s.told + p.owes := by
  have hturn : ∀ {r : Phase × Session}, Session.Turned s r → r.2.runState.isFinal = false →
      r.2.told + r.1.owes = s.told := by
    intro r ht hf
    cases ht with
    | goesOn _ he | breaks _ he => exact Session.told_eq he
    | ends _ _ hs =>
      rw [Session.conclude_runState] at hf
      have hcount : _ = 0 := Session.count_eventsOf hs hf
      rw [Session.told_eq (Session.conclude_events _ _), Session.told_eq hs.fixed.1]
      exact congrArg _ hcount
  cases hk with
  | enters => exact hturn s.turned_enter hf
  | ticks => exact hturn s.turned_tick hf
  | clearsUp => cases hf
  | @reports e es =>
    rw [Session.told_emit hp, Phase.owes_telling_cons, Nat.add_assoc]
  | goesOn => rfl

/-- **In a terminated session a worker at its instructions reports the end, and no other does.** -/
theorem owes_of_terminated (hk : Does k p s r) (hp : s.suppressed = false) (ht : s.runState = .terminated) :
    r.2.runState = .terminated ∧ r.2.told + (r.1.owes + r.1.works) = s.told + (p.owes + p.works) := by
  cases hk with
  | enters =>
    rw [(Session.afterTurn_of_terminated ht).1]
    exact ⟨ht, rfl⟩
  | ticks =>
    rw [(Session.afterTurn_of_terminated ht).2]
    exact ⟨ht, rfl⟩
  | clearsUp => exact ⟨rfl, rfl⟩
  | @reports e es =>
    rw [Session.emit_runState, Session.told_emit hp, Phase.owes_telling_cons, Nat.add_assoc, Nat.add_assoc]
    exact ⟨ht, rfl⟩
  | goesOn => exact ⟨ht, rfl⟩

end WorkSection.Does

namespace Floor

variable {f g : Floor} {m : Move} {moves : List Move}

/-- No call is under way, and every worker has made all its reports. -/
structure Quiet (f : Floor) : Prop where
  idle : ∀ x ∈ f.calls, x = .idle
  ended : ∀ p ∈ f.workers, p = .telling []

/-- Reports of an end that are under way. -/
def owed (f : Floor) : Nat := f.total Stage.owes Phase.owes

/-- Workers that will report the end of a terminated session. -/
def expected (f : Floor) : Nat := f.total Stage.hires Phase.works

/-- Those who have the worker's place and will report nothing. -/
def stray (f : Floor) : Nat := f.total Stage.strays Phase.strays

theorem Quiet.total (h : f.Quiet) {a : Stage → Nat} {b : Phase → Nat} (ha : a .idle = 0) (hb : b (.telling []) = 0) :
    f.total a b = 0 := by
  have hcalls : weigh a f.calls = 0 := weigh_eq_zero_iff.2 fun x hx => by rw [h.idle x hx, ha]
  have hworkers : weigh b f.workers = 0 := weigh_eq_zero_iff.2 fun p hp => by rw [h.ended p hp, hb]
  rw [Floor.total, hcalls, hworkers]

/-- **Whoever has the worker's place will report the end, or is astray.** -/
theorem Held.expected (h : f.Held) : f.expected + f.stray = f.session.running.toNat := by
  have hcalls := weigh_add Stage.holds_eq f.calls
  have hworkers := weigh_add Phase.live_eq f.workers
  unfold Held total at h
  unfold Floor.expected stray total
  omega

theorem stray_eq_zero_iff : f.stray = 0 ↔
    (∀ x ∈ f.calls, x ≠ .reserved ∧ x ≠ .refused) ∧ ∀ p ∈ f.workers, p ≠ .broken := by
  have hcall : ∀ x : Stage, x.strays = 0 ↔ x ≠ .reserved ∧ x ≠ .refused := by
    intro x
    cases x <;> simp [Stage.strays]
  have hwork : ∀ p : Phase, p.strays = 0 ↔ p ≠ .broken := by
    intro p
    cases p <;> simp [Phase.strays]
  unfold stray total
  rw [Nat.add_eq_zero_iff, weigh_eq_zero_iff, weigh_eq_zero_iff]
  simp only [hcall, hwork]

theorem Step.suppressed (hs : Step f m g) (hm : m.mutes = false) : g.session.suppressed = f.session.suppressed := by
  cases hs with
  | call _ hc =>
    refine hc.suppressed fun on he => ?_
    rw [he] at hm
    cases hm
  | work _ hk => exact hk.suppressed

/-- **While the session can be played on, all reports of an end are those that were owed.** -/
theorem Step.owed_of_playable (hs : Step f m g) (hp : f.session.suppressed = false)
    (hf : g.session.runState.isFinal = false) : g.session.told + g.owed = f.session.told + f.owed := by
  cases hs with
  | @call i c x y s handle hi hc =>
    have hcall := hc.owes_of_playable hp hf
    have htotal := total_call (y := y) hi s c.hired handle Stage.owes Phase.owes
    have hhired : weigh Phase.owes c.hired = 0 := by cases c <;> rfl
    unfold owed
    dsimp only
    omega
  | @work w k p q s hw hk =>
    have hwork := hk.owes_of_playable hp hf
    have htotal := total_work (q := q) hw s Stage.owes Phase.owes
    unfold owed
    dsimp only at hwork ⊢
    omega

/-- **In a terminated session what was reported, is owed and is expected come to the same after any section.** -/
theorem Step.owed_of_terminated (hs : Step f m g) (hp : f.session.suppressed = false) (hr : m.rewinds = false)
    (hm : m.fails = false) (ht : f.session.runState = .terminated) : g.session.runState = .terminated ∧
      g.session.told + g.owed + g.expected = f.session.told + f.owed + f.expected := by
  cases hs with
  | @call i c x y s handle hi hc =>
    have hrewind : c ≠ .rewind := fun he => by rw [he] at hr; cases hr
    have hstart : c ≠ .startFails := fun he => by rw [he] at hm; cases hm
    obtain ⟨hg, hcall⟩ := hc.owes_of_terminated hp hrewind hstart ht
    have howed := total_call (y := y) hi s c.hired handle Stage.owes Phase.owes
    have hexpected := total_call (y := y) hi s c.hired handle Stage.hires Phase.works
    have hhired : weigh Phase.owes c.hired = 0 := by cases c <;> rfl
    refine ⟨hg, ?_⟩
    unfold owed expected
    dsimp only
    omega
  | @work w k p q s hw hk =>
    obtain ⟨hg, hwork⟩ := hk.owes_of_terminated hp ht
    have howed := total_work (q := q) hw s Stage.owes Phase.owes
    have hexpected := total_work (q := q) hw s Stage.hires Phase.works
    refine ⟨hg, ?_⟩
    unfold owed expected
    dsimp only at hwork ⊢
    omega

theorem suppressed_of_run? (hr : f.run? moves = some g) (hm : ∀ m ∈ moves, m.mutes = false)
    (hp : f.session.suppressed = false) : g.session.suppressed = false :=
  (run?_keeps (P := fun f => f.session.suppressed = false)
    (fun _ m _ hmem hs hp => ⟨(hs.suppressed (hm m hmem)).trans hp, trivial⟩) hr hp).1

theorem owed_of_run? : ∀ {moves : List Move} {f : Floor}, f.run? moves = some g →
    (∀ m ∈ moves, m.rewinds = false ∧ m.mutes = false) → f.session.suppressed = false →
    g.session.runState.isFinal = false → g.session.told + g.owed = f.session.told + f.owed
  | [], _, hr, _, _, _ => by
    cases hr
    rfl
  | m :: moves, f, hr, hm, hp, hf => by
    obtain ⟨f', hs, hr⟩ := run?_cons.1 hr
    have hstep := step_of_perform? hs
    have hlater : ∀ k ∈ moves, k.rewinds = false ∧ k.mutes = false := fun k hk => hm k (List.mem_cons_of_mem m hk)
    obtain ⟨-, hmute⟩ := hm m List.mem_cons_self
    -- a session that is not at its end now has not been there before
    have hf' : f'.session.runState.isFinal = false := by
      refine Bool.eq_false_iff.2 fun h => ?_
      have hg := (final_of_run? hr (fun k hk => (hlater k hk).1) h).1
      rw [hf] at hg
      cases hg
    rw [owed_of_run? hr hlater ((hstep.suppressed hmute).trans hp) hf, hstep.owed_of_playable hp hf']

theorem Step.terminates {i : Nat} (hs : Step f (.call i .terminate) g) (hn : f.session.noDebug = false)
    (hf : f.session.runState.isFinal = false) : g.session.runState = .terminated ∧
      g.session.told + g.owed + g.expected + f.session.running.toNat =
        f.session.told + f.owed + f.expected + 1 := by
  cases hs with
  | @call i c x y s handle hi hc =>
    obtain ⟨ht, htold, howes, hhires⟩ := hc.terminates hn hf
    have howed := total_call (y := y) hi s [] handle Stage.owes Phase.owes
    have hexpected := total_call (y := y) hi s [] handle Stage.hires Phase.works
    have hnil : CallSection.terminate.hired = [] := rfl
    refine ⟨ht, ?_⟩
    simp only [weigh] at howed hexpected
    unfold owed expected
    simp only [hnil, htold]
    omega

theorem reported_of_run? (hr : f.run? moves = some g)
    (hm : ∀ m ∈ moves, m.rewinds = false ∧ m.mutes = false ∧ m.fails = false) (hp : f.session.suppressed = false)
    (ht : f.session.runState = .terminated) : g.session.runState = .terminated ∧
      g.session.told + g.owed + g.expected = f.session.told + f.owed + f.expected := by
  refine (run?_keeps (P := fun h => h.session.suppressed = false ∧ h.session.runState = .terminated ∧
    h.session.told + h.owed + h.expected = f.session.told + f.owed + f.expected) (Q := fun _ => True) ?_ hr
    ⟨hp, ht, rfl⟩).1.2
  intro h m h' hmem hs ⟨hp, ht, hsum⟩
  obtain ⟨hrewind, hmute, hfail⟩ := hm m hmem
  obtain ⟨ht', hsum'⟩ := hs.owed_of_terminated hp hrewind hfail ht
  exact ⟨⟨(hs.suppressed hmute).trans hp, ht', hsum'.trans hsum⟩, trivial⟩

/-- **Which terminations are reported.**  From any point at which nothing was under way, let a termination of a program
that is debugged have an effect, and let things come to rest again, with no reset on the way.  If every worker could be
started, the end is reported exactly once if at the termination no play was between taking the worker's place and being
granted it, or giving it back, and no worker had broken down; and not at all otherwise. -/
theorem terminate_reported_iff {image : Image} {limits : Limits} {world : World} {s₀ : Session}
    (h₀ : Session.create? image limits world = some s₀) (n : Nat) (home : Nat → Option Nat) (history : List Move)
    {f₀ g g' f : Floor} (hf₀ : (of s₀ n home).run? history = some f₀) (hquiet : f₀.Quiet)
    (hp : f₀.session.suppressed = false)
    (before : List Move) (hbefore : f₀.run? before = some g) (hb : ∀ m ∈ before, m.rewinds = false ∧ m.mutes = false)
    (i : Nat) (hi : g.perform? (.call i .terminate) = some g') (hn : g.session.noDebug = false)
    (hg : g.session.runState.isFinal = false)
    (after : List Move) (hafter : g'.run? after = some f)
    (ha : ∀ m ∈ after, m.rewinds = false ∧ m.mutes = false ∧ m.fails = false) (hend : f.Quiet) :
    f.session.runState = .terminated ∧ f.session.told ≤ f₀.session.told + 1 ∧
    (f.session.told = f₀.session.told + 1 ↔
      (∀ x ∈ g.calls, x ≠ .reserved ∧ x ≠ .refused) ∧ ∀ p ∈ g.workers, p ≠ .broken) := by
  have hheld : g.Held := (held_of_create? h₀ hf₀).run hbefore
  have hplace := hheld.expected
  have hpg : g.session.suppressed = false := suppressed_of_run? hbefore (fun m hm => (hb m hm).2) hp
  have hpg' : g'.session.suppressed = false := ((step_of_perform? hi).suppressed rfl).trans hpg
  obtain ⟨ht, hstep⟩ := (step_of_perform? hi).terminates hn hg
  have hsofar := owed_of_run? hbefore hb hp hg
  obtain ⟨hend', hrest⟩ := reported_of_run? hafter ha hpg' ht
  have howed₀ : f₀.owed = 0 := hquiet.total rfl rfl
  have howed : f.owed = 0 := hend.total rfl rfl
  have hexpected : f.expected = 0 := hend.total rfl rfl
  -- each of the two who can have the place is told apart by its weight, and there is one place
  have hsum : f.session.told + g.stray = f₀.session.told + 1 := by omega
  refine ⟨hend', by omega, ?_⟩
  rw [← stray_eq_zero_iff]
  omega

/-- A worker at its instructions reports the termination. -/
theorem terminate_reported_iff_callOnce :
    ∃ f, (of (Desk.callOnceSession 100) 2 fun _ => none).run? ([.call 0 .reserve, .call 0 .request, .call 0 .start,
        .work 0 (.turn false)] ++ .call 1 .terminate :: [.work 0 (.turn false), .work 0 .report, .work 0 .goOn]) =
          some f ∧ f.session.runState = .terminated ∧ f.session.told = 1 := by
  have hquiet : (of (Desk.callOnceSession 100) 2 fun _ => none).Quiet := ⟨by decide, by decide⟩
  have hreport := terminate_reported_iff (Desk.create?_callOnce 100) 2 (fun _ => none) [] rfl hquiet rfl
    [.call 0 .reserve, .call 0 .request, .call 0 .start, .work 0 (.turn false)] rfl (by decide) 1 rfl rfl rfl
    [.work 0 (.turn false), .work 0 .report, .work 0 .goOn] rfl (by decide) ⟨by decide, by decide⟩
  exact ⟨_, rfl, hreport.1, hreport.2.2.2 ⟨by decide, by decide⟩⟩

/-- **A termination that nobody reports**: it comes between the two sections of a play, which is refused then. -/
theorem terminate_unreported :
    ∃ f, (of (Desk.callOnceSession 100) 2 fun _ => none).run? [.call 0 .reserve, .call 1 .terminate, .call 0 .request,
        .call 0 .giveBack] = some f ∧
      f.Quiet ∧ f.session.runState = .terminated ∧ f.session.noDebug = false ∧ f.session.suppressed = false ∧
      f.session.events = [] := by
  exact ⟨_, rfl, ⟨by decide, by decide⟩, rfl, rfl, rfl, rfl⟩

end Floor

end PseudoVm
