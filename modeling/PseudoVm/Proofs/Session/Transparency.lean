import PseudoVm.Proofs.Session.Schedule
/-!
# Session.Transparency: debugging does not change a program

However a run is cut into bursts, and whatever controllers ask for in between short of touching the program, the
machine of a session is the one that a number of steps leads to, and the failing ones among these steps are those that
the session reports (`Desk.Tracks`).  A program that is not debugged ends as a run of it ends
(`Desk.Unattended`).
-/
namespace PseudoVm

namespace Event

/-- The fault that an event tells of. -/
def report? : Event → Option FaultReport
  | .exception p | .failed p => some p
  | _ => none

/-- Whether an event tells of a fault, or that the program has finished. -/
def isNote : Event → Bool
  | .exception _ | .failed _ => true
  | .exited code => code == 0
  | .paused _ | .terminated => false

end Event

/-- What has become of the program of a session. -/
inductive Fate
  | going
  /-- The worker broke down. -/
  | broken (a : Abort)
  /-- The worker waits for ever. -/
  | hung
  | failed (p : FaultReport)
  | finished

namespace Fate

/-- The failing step that settled it. -/
def failures : Fate → List (Except Abort FaultReport)
  | .broken a => [.error a]
  | .hung => [.error .deadlock]
  | .failed p => [.ok p]
  | .going | .finished => []

/-- The event that tells of it. -/
def notes : Fate → List Event
  | .failed p => [.failed p]
  | .finished => [.exited 0]
  | .going | .broken _ | .hung => []

/-- Whether a session that has made `n` steps shows it. -/
def Fits (m₀ : Machine) (n : Nat) (s : Session) : Fate → Prop
  | .going => s.done = false ∧ s.machine.isDone = false
  | .broken a => s.done = false ∧ s.runState = .terminated ∧ s.running = false ∧ m₀.FailsLast n (.error a)
  | .hung => s.done = false ∧ s.stuck = true ∧ s.running = true ∧ m₀.FailsLast n (.error .deadlock)
  | .failed p => s.done = true ∧ s.running = false ∧ m₀.FailsLast n (.ok p)
  | .finished => s.done = true ∧ s.running = false ∧ s.machine.isDone = true

variable {m₀ : Machine} {n : Nat} {s : Session} {fate : Fate}

theorem Fits.eq_going (h : fate.Fits m₀ n s) (hw : s.working = true) : fate = .going := by
  obtain ⟨hr, hst⟩ := Session.working_iff.1 hw
  cases fate with
  | going => rfl
  | broken a => rw [h.2.2.1] at hr; cases hr
  | hung => rw [h.2.1] at hst; cases hst
  | failed p => rw [h.2.1] at hr; cases hr
  | finished => rw [h.2.1] at hr; cases hr

theorem Fits.refused (h : fate.Fits m₀ n s) (hr : s.running = false) (hf : s.refusal? = none) : fate = .going := by
  obtain ⟨hd, -, ht⟩ := Session.refusal?_eq_none.1 hf
  cases fate with
  | going => rfl
  | broken a => exact absurd h.2.1 ht
  | hung => rw [h.2.2.1] at hr; cases hr
  | failed p => rw [h.1] at hd; cases hd
  | finished => rw [h.1] at hd; cases hd

theorem Fits.controls {s' : Session} (h : fate.Fits m₀ n s) (hc : s.Controls s') : fate.Fits m₀ n s' := by
  rcases hc.worker with ⟨hr, -⟩ | ⟨hr, hf, -⟩
  · cases fate with
    | going => exact ⟨hc.done.trans h.1, hc.machine ▸ h.2⟩
    | broken a => exact ⟨hc.done.trans h.1, hc.terminated h.2.1, hr.trans h.2.2.1, h.2.2.2⟩
    | hung => exact ⟨hc.done.trans h.1, hc.stuck.trans h.2.1, hr.trans h.2.2.1, h.2.2.2⟩
    | failed p => exact ⟨hc.done.trans h.1, hr.trans h.2.1, h.2.2⟩
    | finished => exact ⟨hc.done.trans h.1, hr.trans h.2.1, hc.machine ▸ h.2.2⟩
  · cases h.refused hr hf
    exact ⟨hc.done.trans h.1, hc.machine ▸ h.2⟩

end Fate

namespace Desk

/-- The faults that have been reported or will be, in order. -/
def reports (d : Desk) : List FaultReport := d.log.filterMap Event.report?

/-- Whether a session rests on a fault: it is paused on it, or ended by it. -/
def RestsOn (d : Desk) (p : FaultReport) : Prop :=
  (∃ trace, d.session.exception = some (p, trace)) ∨ .failed p ∈ d.log

/-- **A session is where `n` steps lead**, of which those in `ps` failed and were reported, and its fate is settled by
the last of them. -/
structure Tracks (m₀ : Machine) (d : Desk) (n : Nat) (ps : List FaultReport) (fate : Fate) : Prop where
  machine : d.session.machine = m₀.stepped n
  live : ∀ j, j < n → (m₀.stepped j).isDone = false
  failures : m₀.failures n = ps.map .ok ++ fate.failures
  notes : d.log.filter Event.isNote = ps.map .exception ++ fate.notes
  fits : fate.Fits m₀ n d.session
  heard : d.session.suppressed = false
  exception : ∀ p trace, d.session.exception = some (p, trace) →
    d.session.running = false ∧ m₀.FailsLast n (.ok p)

namespace Tracks

variable {m₀ : Machine} {d : Desk} {n : Nat} {ps : List FaultReport} {fate : Fate}

theorem ask (h : Tracks m₀ d n ps fate) {r : Request} (hr : r.isTransparent = true) :
    Tracks m₀ (d.perform (.ask r)) n ps fate := by
  have hc : d.session.Controls (d.perform (.ask r)).session :=
    Session.asked_keeps (.refl d.session) (Session.controls_apply hr d.session)
  refine ⟨hc.machine.trans h.machine, h.live, h.failures, ?_, h.fits.controls hc, hc.suppressed.trans h.heard, ?_⟩
  · rw [← h.notes, log, log]
    rcases hc.events with he | he
    · rw [he]
      rfl
    · rw [he, List.append_assoc, List.filter_append, List.filter_append, List.filter_append]
      rfl
  · intro p trace hp
    rcases hc.worker with ⟨hrun, he⟩ | ⟨-, -, he⟩
    · obtain ⟨hidle, hlast⟩ := h.exception p trace (he ▸ hp)
      exact ⟨hrun.trans hidle, hlast⟩
    · rw [he] at hp
      cases hp

theorem deliver (h : Tracks m₀ d n ps fate) : Tracks m₀ d.deliver n ps fate := by
  obtain ⟨es, he⟩ := d.deliver_session
  refine ⟨he ▸ h.machine, h.live, h.failures, ?_, ?_, he ▸ h.heard, he ▸ h.exception⟩
  · rw [log_deliver h.heard]
    exact h.notes
  · rw [he]
    cases fate <;> exact h.fits

theorem exception_eq_none (h : Tracks m₀ d n ps fate) (hr : d.session.running = true) :
    d.session.exception = none := by
  cases he : d.session.exception with
  | none => rfl
  | some p =>
    obtain ⟨hidle, -⟩ := h.exception p.1 p.2 he
    rw [hidle] at hr
    cases hr

theorem live_succ (h : Tracks m₀ d n ps .going) : ∀ j, j < n + 1 → (m₀.stepped j).isDone = false := by
  intro j hj
  rcases Nat.lt_succ_iff_lt_or_eq.1 hj with hlt | rfl
  · exact h.live j hlt
  · rw [← h.machine]
    exact h.fits.2

theorem failures_succ (h : Tracks m₀ d n ps .going) :
    m₀.failures (n + 1) = ps.map .ok ++ d.session.machine.failure?.toList := by
  rw [Machine.failures_succ, h.failures, ← h.machine]
  simp only [Fate.failures, List.append_nil]

theorem took (h : Tracks m₀ d n ps .going) {o : Option Outcome} {s : Session} {n' : Nat} {ps' : List FaultReport}
    {fate' : Fate} (hs : d.session.Section o s) (hm : s.machine = m₀.stepped n')
    (hl : ∀ j, j < n' → (m₀.stepped j).isDone = false) (hf : m₀.failures n' = ps'.map .ok ++ fate'.failures)
    (hn : ps.map .exception ++ ((o.map Session.eventsOf).getD []).filter Event.isNote =
      ps'.map .exception ++ fate'.notes)
    (hfit : fate'.Fits m₀ n' (d.took o s).session)
    (he : ∀ p trace, s.exception = some (p, trace) →
      (d.took o s).session.running = false ∧ m₀.FailsLast n' (.ok p)) :
    Tracks m₀ (d.took o s) n' ps' fate' := by
  have hnotes : d.log.filter Event.isNote = ps.map .exception := by
    rw [h.notes]
    exact List.append_nil _
  have hlog : (d.took o s).log.filter Event.isNote = ps'.map .exception ++ fate'.notes := by
    rw [log_took hs, List.filter_append, hnotes, hn]
  have hsup : s.suppressed = false := hs.fixed.2.1.trans h.heard
  cases o with
  | none => exact ⟨hm, hl, hf, hlog, hfit, hsup, he⟩
  | some o =>
    refine ⟨?_, hl, hf, hlog, hfit, ?_, fun p trace hp => he p trace ?_⟩
    · exact (Session.conclude_machine s o).trans hm
    · exact (Session.conclude_suppressed s o).trans hsup
    · exact (Session.conclude_exception s o).symm.trans hp

/-- **A turn of the worker makes at most one more step.** -/
theorem turn (h : Tracks m₀ d n ps fate) : ∃ n' ps' fate', Tracks m₀ d.turn n' ps' fate' := by
  cases hw : d.session.working with
  | false =>
    rw [turn_of_not_working hw]
    exact ⟨n, ps, fate, h⟩
  | true =>
    obtain rfl := h.fits.eq_going hw
    obtain ⟨o, s, hs, hturn⟩ := turn_of_working hw
    have hcalm := h.exception_eq_none (Session.working_iff.1 hw).1
    have hquiet : ∀ {P : FaultReport → Prop} p trace, d.session.exception = some (p, trace) → P p := by
      intro P p trace hp
      rw [hcalm] at hp
      cases hp
    have hm := h.machine
    have hsucc : d.session.machine.step.2 = m₀.stepped (n + 1) := congrArg (fun m => m.step.2) hm
    have hfail := h.failures_succ
    have hlast : ∀ {r}, d.session.machine.failure? = some r → m₀.FailsLast (n + 1) r := by
      intro r hf
      exact ⟨n, rfl, hm ▸ hf⟩
    rw [hturn]
    cases hs with
    | givesWay hrs =>
      refine ⟨n, ps, .going, h.took (.givesWay hrs) hm h.live h.failures ?_ ?_ hquiet⟩
      · cases hstate : d.session.runState <;> rfl
      · cases hstate : d.session.runState <;> exact h.fits
    | begins hrs => exact ⟨n, ps, .going, h.took (.begins hrs) hm h.live h.failures rfl h.fits hquiet⟩
    | pauses hn => exact ⟨n, ps, .going, h.took (.pauses hn) hm h.live h.failures rfl h.fits hquiet⟩
    | ends hd => rw [h.fits.2] at hd; cases hd
    | next hn hd =>
      rw [Machine.failure?_eq_none.2 hn] at hfail
      exact ⟨n + 1, ps, .going, h.took (.next hn hd) hsucc h.live_succ hfail rfl ⟨h.fits.1, hd⟩ hquiet⟩
    | breaks hn hd hnd =>
      rw [Machine.failure?_eq_none.2 hn] at hfail
      exact ⟨n + 1, ps, .going, h.took (.breaks hn hd hnd) hsucc h.live_succ hfail rfl ⟨h.fits.1, hd⟩ hquiet⟩
    | finishes hn hd =>
      rw [Machine.failure?_eq_none.2 hn] at hfail
      exact ⟨n + 1, ps, .finished, h.took (.finishes hn hd) hsucc h.live_succ hfail rfl ⟨rfl, rfl, hd⟩ hquiet⟩
    | @excepts p hf hnd =>
      rw [hf] at hfail
      refine ⟨n + 1, ps ++ [p], .going, h.took (.excepts hf hnd) hsucc h.live_succ ?_ ?_ ?_ ?_⟩
      · rw [hfail, List.map_append]; exact (List.append_nil _).symm
      · rw [List.map_append]; exact (List.append_nil _).symm
      · exact ⟨h.fits.1, (Machine.isDone_of_failure hf).trans h.fits.2⟩
      · intro q trace hq
        cases hq
        exact ⟨rfl, hlast hf⟩
    | @fails p hf hnd =>
      rw [hf] at hfail
      exact ⟨n + 1, ps, .failed p, h.took (.fails hf hnd) hsucc h.live_succ hfail rfl ⟨rfl, rfl, hlast hf⟩ hquiet⟩
    | @crashes a hf ha =>
      rw [hf] at hfail
      refine ⟨n + 1, ps, .broken a, h.took (.crashes hf ha) hsucc h.live_succ hfail rfl ?_ hquiet⟩
      exact ⟨h.fits.1, rfl, rfl, hlast hf⟩
    | hangs hf =>
      rw [hf] at hfail
      refine ⟨n + 1, ps, .hung, h.took (.hangs hf) hsucc h.live_succ hfail rfl ?_ hquiet⟩
      exact ⟨h.fits.1, rfl, (Session.working_iff.1 hw).1, hlast hf⟩

theorem perform (h : Tracks m₀ d n ps fate) {a : Act} (ha : a.isTransparent = true) :
    ∃ n' ps' fate', Tracks m₀ (d.perform a) n' ps' fate' := by
  cases a with
  | ask r => exact ⟨n, ps, fate, h.ask ha⟩
  | turn => exact h.turn
  | deliver => exact ⟨n, ps, fate, h.deliver⟩

theorem reports_eq (h : Tracks m₀ d n ps fate) : d.reports = ps ++ fate.notes.filterMap Event.report? := by
  have hnote : (fun e => if Event.isNote e = true then Event.report? e else none) = Event.report? := by
    funext e
    cases e with
    | exited code => cases hc : code == 0 <;> simp [Event.isNote, Event.report?]
    | paused | exception | failed | terminated => rfl
  have hps : (ps.map Event.exception).filterMap Event.report? = ps := by
    rw [List.filterMap_map]
    exact List.filterMap_some
  calc d.reports = (d.log.filter Event.isNote).filterMap Event.report? := by rw [List.filterMap_filter, hnote]; rfl
    _ = ps ++ fate.notes.filterMap Event.report? := by rw [h.notes, List.filterMap_append, hps]

/-- **The failing steps are those reported**, and one more if the worker broke down on it or waits for ever. -/
theorem failures_eq (h : Tracks m₀ d n ps fate) : ∃ broke : Option Abort,
    m₀.failures n = d.reports.map .ok ++ broke.toList.map .error ∧ ∀ a, broke = some a → m₀.FailsLast n (.error a) := by
  rw [h.failures, h.reports_eq]
  cases fate with
  | broken a =>
    refine ⟨some a, by simp [Fate.failures, Fate.notes], fun b hb => ?_⟩
    cases hb
    exact h.fits.2.2.2
  | hung =>
    refine ⟨some .deadlock, by simp [Fate.failures, Fate.notes], fun b hb => ?_⟩
    cases hb
    exact h.fits.2.2.2
  | going | failed | finished =>
    exact ⟨none, by simp [Fate.failures, Fate.notes, Event.report?], fun b hb => nomatch hb⟩

theorem failsLast (h : Tracks m₀ d n ps fate) {p : FaultReport} (hp : d.RestsOn p) : m₀.FailsLast n (.ok p) := by
  rcases hp with ⟨trace, he⟩ | hmem
  · exact (h.exception p trace he).2
  · have hnote : Event.failed p ∈ ps.map .exception ++ fate.notes := by
      rw [← h.notes]
      exact List.mem_filter.2 ⟨hmem, rfl⟩
    rcases List.mem_append.1 hnote with hl | hr
    · obtain ⟨q, -, hq⟩ := List.mem_map.1 hl
      cases hq
    · cases fate with
      | going | broken | hung => cases hr
      | finished => cases List.mem_singleton.1 hr
      | failed q =>
        cases List.mem_singleton.1 hr
        exact h.fits.2.2

/-- **A session has made steps up to and including the first that fails**, as long as it has reported none, or rests on
the only one that it has reported. -/
theorem succeeds (h : Tracks m₀ d n ps fate) (hr : d.reports = [] ∨ ∃ p, d.reports = [p] ∧ d.RestsOn p) :
    m₀.Succeeds (n - 1) := by
  obtain ⟨broke, hf, hb⟩ := h.failures_eq
  cases broke with
  | none =>
    rcases hr with hr | ⟨p, hr, hp⟩
    · rw [hr] at hf
      exact (Machine.failures_eq_nil.1 hf).mono (Nat.sub_le n 1)
    · rw [hr] at hf
      exact (h.failsLast hp).succeeds hf
  | some a =>
    have hlast := hb a rfl
    rcases hr with hr | ⟨p, -, hp⟩
    · rw [hr] at hf
      exact hlast.succeeds hf
    · cases hlast.unique (h.failsLast hp)

end Tracks

/-! ## Programs that are not debugged -/

/-- What a session reports of a run that ended with a result. -/
def newsOf : Except Abort (Option FaultReport) → List Event
  | .ok none => Session.eventsOf .finished
  | .ok (some p) => Session.eventsOf (.failed p)
  | .error _ => Session.eventsOf .crashed

/-- The session of a program that is not debugged, once it is played: the worker has had a number of turns and the
program is running, or it is over and ended as a run of it does, or never ends as a run of it does not. -/
inductive Unattended (m₀ : Machine) (turns : Nat) (d : Desk) : Prop
  | going {n : Nat} (machine : d.session.machine = m₀.stepped n) (succeeds : m₀.Succeeds n)
    (isDone : d.session.machine.isDone = false) (runState : d.session.runState = .running)
    (working : d.session.working = true) (noDebug : d.session.noDebug = true) (heard : d.session.suppressed = false)
    (log : d.log = []) (count : turns ≤ n + d.entered.toNat)
  | settled (refused : d.session.refusal? ≠ none) (running : d.session.running = false)
    (noDebug : d.session.noDebug = true) (heard : d.session.suppressed = false)
    (log : d.log = newsOf m₀.runTraced.1) (ended : m₀.runTraced.1 ≠ .error .deadlock)
  | hung (stuck : d.session.stuck = true) (running : d.session.running = true)
    (noDebug : d.session.noDebug = true) (heard : d.session.suppressed = false) (log : d.log = [])
    (endless : m₀.runTraced.1 = .error .deadlock)

namespace Unattended

variable {m₀ : Machine} {d : Desk} {turns : Nat}

theorem ask (h : Unattended m₀ turns d) {r : Request} (ht : r.isTransparent = true) (hh : r ≠ .halt) :
    Unattended m₀ turns (d.perform (.ask r)) := by
  have hagrees : d.session.noDebug = true → d.session.running = true ∨ d.session.refusal? ≠ none →
      d.session.Agrees (d.perform (.ask r)).session := by
    intro hn hp
    exact Session.asked_keeps (.refl d.session) (Session.agrees_apply ht hh hn hp)
  cases h with
  | going hm hs hd hst hw hn hsup hl hc =>
    have ha := hagrees hn (.inl (Session.working_iff.1 hw).1)
    refine .going (ha.machine.trans hm) hs (ha.machine ▸ hd) (ha.runState.trans hst) (ha.working.trans hw)
      (ha.noDebug.trans hn) (ha.suppressed.trans hsup) ?_ hc
    rw [← hl, log, log, ← ha.events]
    rfl
  | settled hf hr hn hsup hl he =>
    have ha := hagrees hn (.inr hf)
    refine .settled (ha.refusal? ▸ hf) (ha.running.trans hr) (ha.noDebug.trans hn) (ha.suppressed.trans hsup) ?_ he
    rw [← hl, log, log, ← ha.events]
    rfl
  | hung hst hr hn hsup hl he =>
    have ha := hagrees hn (.inl hr)
    refine .hung (ha.stuck.trans hst) (ha.running.trans hr) (ha.noDebug.trans hn) (ha.suppressed.trans hsup) ?_ he
    rw [← hl, log, log, ← ha.events]
    rfl

theorem deliver (h : Unattended m₀ turns d) : Unattended m₀ turns d.deliver := by
  obtain ⟨es, he⟩ := d.deliver_session
  have hquiet : d.log = [] → d.deliver = d := by
    intro hl
    rw [Desk.deliver, (List.append_eq_nil_iff.1 hl).2]
  cases h with
  | going hm hs hd hst hw hn hsup hl hc =>
    rw [hquiet hl]
    exact .going hm hs hd hst hw hn hsup hl hc
  | settled hf hr hn hsup hl hend =>
    exact .settled (he ▸ hf) (he ▸ hr) (he ▸ hn) (he ▸ hsup) ((log_deliver hsup).trans hl) hend
  | hung hst hr hn hsup hl hend =>
    rw [hquiet hl]
    exact .hung hst hr hn hsup hl hend

/-- **A burst that nobody can interrupt ends as the run does.** -/
theorem news_of_ending {s s' : Session} {o : Outcome} {n : Nat} (hm : s.machine = m₀.stepped n) (hs : m₀.Succeeds n)
    (hd : s.machine.isDone = false) (hst : s.runState = .running) (hn : s.noDebug = true)
    (h : s.Section (some o) s') : Session.eventsOf o = newsOf m₀.runTraced.1 ∧
      (o ≠ .hung ∧ s'.refusal? ≠ none ∧ m₀.runTraced.1 ≠ .error .deadlock ∨
        o = .hung ∧ s'.stuck = true ∧ m₀.runTraced.1 = .error .deadlock) := by
  have hd' : (m₀.stepped n).isDone = false := hm ▸ hd
  cases h with
  | givesWay hr => exact absurd hst hr
  | pauses hnd => rw [hn] at hnd; cases hnd
  | ends hdone => rw [hd] at hdone; cases hdone
  | breaks _ _ hnd => rw [hn] at hnd; cases hnd
  | excepts _ hnd => rw [hn] at hnd; cases hnd
  | finishes hstep hdone =>
    rw [hm] at hstep hdone
    have hrun := Machine.run_of_finishes (Machine.succeeds_succ.2 ⟨hs, hstep⟩) hdone
    rw [Machine.runTraced_eq_ok_none.2 (congrArg Prod.fst hrun)]
    exact ⟨rfl, .inl ⟨nofun, nofun, nofun⟩⟩
  | fails hf _ =>
    rw [Machine.runTraced_of_failure hs hd' (hm ▸ hf)]
    exact ⟨rfl, .inl ⟨nofun, nofun, nofun⟩⟩
  | crashes hf ha =>
    rw [Machine.runTraced_of_failure hs hd' (hm ▸ hf)]
    refine ⟨rfl, .inl ⟨nofun, fun h => absurd rfl (Session.refusal?_eq_none.1 h).2.2, fun h => ?_⟩⟩
    exact ha (Except.error.inj h)
  | hangs hf =>
    rw [Machine.runTraced_of_failure hs hd' (hm ▸ hf)]
    exact ⟨rfl, .inr ⟨rfl, rfl, rfl⟩⟩

theorem turn (h : Unattended m₀ turns d) : Unattended m₀ (turns + 1) d.turn := by
  cases h with
  | settled hf hr hn hsup hl he =>
    have hidle : d.session.working = false := by rw [Session.working, hr, Bool.false_and]
    rw [turn_of_not_working hidle]
    exact .settled hf hr hn hsup hl he
  | hung hst hr hn hsup hl he =>
    have hidle : d.session.working = false := by rw [Session.working, hst, Bool.not_true, Bool.and_false]
    rw [turn_of_not_working hidle]
    exact .hung hst hr hn hsup hl he
  | @going n hm hs hd hst hw hn hsup hl hc =>
    have hsucc : d.session.machine.step.2 = m₀.stepped (n + 1) := congrArg (fun m => m.step.2) hm
    have hlog : ∀ {o s}, d.session.Section o s → (d.took o s).log = (o.map Session.eventsOf).getD [] := by
      intro o s h
      rw [log_took h, hl, List.nil_append]
    have hturn := turn_eq hw
    cases he : d.entered with
    -- The turn that begins a burst executes nothing: it is the one that the count allows for.
    | false =>
      rw [he] at hturn hc
      simp only [Bool.false_eq_true, if_false, Session.enter_of_noDebug hst hn] at hturn
      rw [hturn]
      exact .going hm hs hd hst hw hn hsup (hlog (.begins hst)) (Nat.succ_le_succ hc)
    | true =>
      rw [he] at hturn hc
      simp only [if_true] at hturn
      have hsec := d.session.section_tick
      cases ho : d.session.tick.1 with
      | none =>
        obtain ⟨hstep, hd₁, htick⟩ := Session.tick_none (show d.session.tick = (none, d.session.tick.2) by rw [← ho])
        rw [hturn, ho, htick]
        refine .going hsucc (Machine.succeeds_succ.2 ⟨hs, hm ▸ hstep⟩) hd₁ hst hw hn hsup (hlog (.next hstep hd₁)) ?_
        exact Nat.succ_le_succ hc
      | some o =>
        rw [hturn, ho]
        rw [ho] at hsec
        obtain ⟨-, hfsup, hfn, hfr⟩ := hsec.fixed
        obtain ⟨hnews, hend⟩ := news_of_ending hm hs hd hst hn hsec
        have hn' : (d.took (some o) d.session.tick.2).session.noDebug = true :=
          (Session.conclude_noDebug _ o).trans (hfn.trans hn)
        have hsup' : (d.took (some o) d.session.tick.2).session.suppressed = false :=
          (Session.conclude_suppressed _ o).trans (hfsup.trans hsup)
        rcases hend with ⟨ho, hf, he⟩ | ⟨rfl, hs, he⟩
        · refine .settled ?_ (Session.conclude_running _ o ho) hn' hsup' ((hlog hsec).trans hnews) he
          exact (Session.conclude_refusal? _ o).symm ▸ hf
        · exact .hung hs (hfr.trans (Session.working_iff.1 hw).1) hn' hsup' (hlog hsec) he

theorem perform (h : Unattended m₀ turns d) {a : Act} (ht : a.isTransparent = true) (hh : a ≠ .ask .halt) :
    Unattended m₀ (turns + a.isTurn.toNat) (d.perform a) := by
  cases a with
  | ask r => exact h.ask ht fun he => hh (congrArg Act.ask he)
  | turn => exact h.turn
  | deliver => exact h.deliver

theorem run : ∀ {acts : List Act} {turns : Nat} {d : Desk}, Unattended m₀ turns d →
    (∀ a ∈ acts, a.isTransparent = true) → .ask .halt ∉ acts →
    Unattended m₀ (turns + acts.countP Act.isTurn) (d.run acts)
  | [], _, _, h, _, _ => h
  | a :: acts, turns, d, h, ht, hh => by
    have ha := h.perform (ht a List.mem_cons_self) fun he => hh (he ▸ List.mem_cons_self)
    have hrest := run ha (fun b hb => ht b (List.mem_cons_of_mem a hb)) fun hb => hh (List.mem_cons_of_mem a hb)
    have hcount : turns + (a :: acts).countP Act.isTurn = turns + a.isTurn.toNat + acts.countP Act.isTurn := by
      rw [List.countP_cons]
      cases a.isTurn
      · simp
      · simp; omega
    rw [hcount]
    exact hrest

end Unattended

/-- A session before its first play, which may have been terminated already if that was asked for. -/
structure Unplayed (m₀ : Machine) (ended : Prop) (d : Desk) : Prop where
  machine : d.session.machine = m₀
  done : d.session.done = false
  running : d.session.running = false
  stuck : d.session.stuck = false
  heard : d.session.suppressed = false
  pending : d.pending = []
  state : d.session.runState = .paused ∧ d.session.events = [] ∨ d.session.runState = .terminated ∧ ended

namespace Unplayed

variable {m₀ : Machine} {ended : Prop} {d : Desk}

theorem ask (h : Unplayed m₀ ended d) {r : Request} (ht : r.isTransparent = true) (hp : r ≠ .play) (hh : r ≠ .halt)
    (he : r = .terminate → ended) : Unplayed m₀ ended (d.perform (.ask r)) := by
  have hnot : d.session.runState ≠ .running := by
    rcases h.state with ⟨hs, -⟩ | ⟨hs, -⟩ <;> rw [hs] <;> decide
  have hkeep : ∀ s, s.machine = d.session.machine → s.done = d.session.done → s.running = d.session.running →
      s.stuck = d.session.stuck → s.suppressed = d.session.suppressed → s.runState = d.session.runState →
      s.events = d.session.events → Unplayed m₀ ended { d with session := s } := by
    intro s hm hd hr hk hs hst hev
    exact ⟨hm.trans h.machine, hd.trans h.done, hr.trans h.running, hk.trans h.stuck, hs.trans h.heard, h.pending,
      hst.symm ▸ hev.symm ▸ h.state⟩
  rw [perform, Session.asked_of_not_stuck h.stuck]
  cases r with
  | play => exact absurd rfl hp
  | halt => exact absurd rfl hh
  | pause =>
    have hsame : d.session.pause = d.session := by
      unfold Session.pause
      rw [if_pos]
      rw [Bool.or_eq_true_iff]
      exact .inr (bne_iff_ne.2 hnot)
    rw [Request.apply, hsame]
    exact h
  | step kind granularity =>
    rw [Request.apply, Session.armStep]
    split
    · exact h
    · exact hkeep _ rfl rfl rfl rfl rfl rfl rfl
  | terminate =>
    rw [Request.apply, Session.terminate_eq]
    split
    · exact h
    · split <;> exact ⟨h.machine, h.done, h.running, h.stuck, h.heard, h.pending, .inr ⟨rfl, he rfl⟩⟩
  | lineBreakpoints | instBreakpoints | stopOnEntry | noDebug | name => exact hkeep _ rfl rfl rfl rfl rfl rfl rfl
  | suppress | setVariable | restartFrame | evaluate | rewind => cases ht

theorem perform (h : Unplayed m₀ ended d) {a : Act} (ht : a.isTransparent = true) (hp : a ≠ .ask .play)
    (hh : a ≠ .ask .halt) (he : a = .ask .terminate → ended) : Unplayed m₀ ended (d.perform a) := by
  cases a with
  | ask r =>
    exact h.ask ht (fun hr => hp (congrArg Act.ask hr)) (fun hr => hh (congrArg Act.ask hr))
      fun hr => he (congrArg Act.ask hr)
  | turn =>
    have hidle : d.session.working = false := by rw [Session.working, h.running, Bool.false_and]
    rw [Desk.perform, turn_of_not_working hidle]
    exact h
  | deliver =>
    rw [Desk.perform, Desk.deliver, h.pending]
    exact h

theorem refusal? (h : Unplayed m₀ ended d) (he : ¬ ended) : d.session.refusal? = none := by
  rcases h.state with ⟨hs, -⟩ | ⟨-, ht⟩
  · refine Session.refusal?_eq_none.2 ⟨h.done, ?_, ?_⟩ <;> rw [hs] <;> decide
  · exact absurd ht he

theorem play (h : Unplayed m₀ ended d) (hd : m₀.isDone = false) (hn : d.session.noDebug = true)
    (hf : d.session.refusal? = none) : Unattended m₀ 0 (d.perform (.ask .play)) := by
  have hstart := Session.start_eq_ok.2 ⟨h.running, hf, rfl⟩
  have hs : (d.perform (.ask .play)).session =
      { d.session with running := true, runState := .running, exception := none } := by
    rw [Desk.perform, Session.asked_of_not_stuck h.stuck, Request.apply, hstart]
    rfl
  have hev : d.session.events = [] := by
    rcases h.state with ⟨-, hev⟩ | ⟨ht, -⟩
    · exact hev
    · exact absurd ht (Session.refusal?_eq_none.1 hf).2.2
  refine .going (show _ = m₀.stepped 0 from ?_) (fun j hj => absurd hj (Nat.not_lt_zero j)) ?_ ?_ ?_ ?_ ?_ ?_ (Nat.zero_le _)
  · rw [hs]; exact h.machine
  · rw [hs]; exact h.machine.symm ▸ hd
  · rw [hs]
  · rw [hs]; exact Session.working_iff.2 ⟨rfl, h.stuck⟩
  · rw [hs]; exact hn
  · rw [hs]; exact h.heard
  · rw [log, hs, hev]; exact h.pending

theorem run {acts : List Act} (h : Unplayed m₀ (.ask .terminate ∈ acts) d) (ht : ∀ a ∈ acts, a.isTransparent = true)
    (hp : .ask .play ∉ acts) (hh : .ask .halt ∉ acts) : Unplayed m₀ (.ask .terminate ∈ acts) (d.run acts) := by
  refine run_keeps (fun d a ha h => ?_) h
  exact h.perform (ht a ha) (fun he => hp (he ▸ ha)) (fun he => hh (he ▸ ha)) fun he => he ▸ ha

end Unplayed

/-! ## Debugging is transparent -/

end Desk

end PseudoVm
