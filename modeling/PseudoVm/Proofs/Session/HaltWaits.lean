import PseudoVm.Proofs.Session.Interleaving
/-!
# Session.HaltWaits: what a halt waits for

There is one handle, and a halt waits for the worker whose handle it finds.  It finds the handle of the live worker
unless another call has taken it, or a play has been granted whose worker is still to be started.  In both cases the halt
may return while a worker is live or about to be (`Floor.exists_return`); in all others it returns when there is none,
and there is none until a reset (`Floor.Waited.run`).
-/
namespace PseudoVm

theorem Phase.live_le_one (p : Phase) : p.live ≤ 1 := by cases p <;> simp [live]

namespace CallSection.Does

variable {home : Option Nat} {workers : List Phase} {c : CallSection} {x y : Stage} {s s' : Session} {h h' : Option Nat}

theorem ne_granted (hc : Does home workers c x s h y s' h') (hf : s.runState.isFinal = true) : y ≠ .granted := by
  cases hc with
  | grants hs =>
    obtain ⟨e, hg⟩ := Session.grant_of_isFinal hf
    rw [hg] at hs
    cases hs
  | @findsNone p | @joins p | @putsBack p => cases p <;> exact Stage.noConfusion
  | _ => exact Stage.noConfusion

theorem eq_granted (hc : Does home workers .start x s h y s' h') : x = .granted := by
  cases hc
  rfl

theorem joining_ended {p : Purpose} {w : Nat} (hc : Does home workers c (.joining p w) s h y s' h') :
    workers[w]? = some (.telling []) := by
  cases hc with
  | joins hw => exact hw

/-- **The handle is that of a worker who was started**, and so is one that is to be put back. -/
theorem bounded (hc : Does home workers c x s h y s' h') (hh : ∀ w, h = some w → w < workers.length)
    (hx : ∀ p w, x = .returning p w → w < workers.length) :
    (∀ w, h' = some w → w < (workers ++ c.hired).length) ∧
    ∀ p w, y = .returning p w → w < (workers ++ c.hired).length := by
  rw [List.length_append]
  have hh' : ∀ w, h = some w → w < workers.length + c.hired.length := fun w hw => Nat.lt_add_right _ (hh w hw)
  cases hc with
  | starts =>
    refine ⟨?_, nofun⟩
    rintro w ⟨⟩
    exact Nat.lt_succ_self _
  | startFails | finds => exact ⟨nofun, nofun⟩
  | findsOwn =>
    refine ⟨nofun, ?_⟩
    rintro p v ⟨⟩
    exact hh' _ rfl
  | @findsNone p | @joins p => exact ⟨hh', by cases p <;> nofun⟩
  | @putsBack p w =>
    refine ⟨?_, by cases p <;> nofun⟩
    rintro v ⟨⟩
    exact Nat.lt_add_right _ (hx p w rfl)
  | _ => exact ⟨hh', nofun⟩

end CallSection.Does

namespace WorkSection.Does

variable {k : WorkSection} {p : Phase} {s : Session} {r : Phase × Session}

theorem live_le (hk : Does k p s r) : r.1.live ≤ p.live := by
  cases hk with
  | enters | ticks => exact Phase.live_le_one _
  | clearsUp | reports | goesOn => exact Nat.zero_le _

end WorkSection.Does

namespace Floor

variable {f g : Floor} {m : Move} {moves : List Move} {i : Nat}

/-! ## After the handle is found -/

theorem Step.starts_eq_false (hs : Step f m g) (hg : ∀ x ∈ f.calls, x ≠ .granted) : m.starts = false := by
  cases hs with
  | @call j c x y s handle hj hc =>
    cases c with
    | start => exact absurd hc.eq_granted (hg x (List.mem_of_getElem? hj))
    | _ => rfl
  | work => rfl

theorem Step.ne_granted (hs : Step f m g) (hf : f.session.runState.isFinal = true)
    (hg : ∀ x ∈ f.calls, x ≠ .granted) : ∀ x ∈ g.calls, x ≠ .granted := by
  cases hs with
  | @call j c x y s handle hj hc =>
    intro z hz
    rcases List.mem_or_eq_of_mem_set hz with hz | rfl
    · exact hg z hz
    · exact hc.ne_granted hf
  | work => exact hg

/-- **A worker that is live was live before, unless it is started.** -/
theorem Step.live_of_live (hs : Step f m g) (hm : m.starts = false) {w : Nat} (hw : g.Live w) : f.Live w := by
  obtain ⟨q', hq', hone⟩ := hw
  cases hs with
  | @call j c x y s handle hj hc =>
    have hired : c.hired = [] := by
      cases c with
      | start => cases hm
      | _ => rfl
    rw [hired, List.append_nil] at hq'
    exact ⟨q', hq', hone⟩
  | @work v k p q s hv hk =>
    by_cases hvw : v = w
    · subst hvw
      have hlt : v < f.workers.length := (List.getElem?_eq_some_iff.1 hv).1
      rw [List.getElem?_set_self hlt] at hq'
      cases hq'
      have hle : q'.live ≤ p.live := hk.live_le
      have hp := p.live_le_one
      exact ⟨p, hv, by omega⟩
    · rw [List.getElem?_set_ne hvw] at hq'
      exact ⟨q', hq', hone⟩

/-- **A call that waits for a live worker goes on waiting.** -/
theorem Step.joining (hs : Step f m g) {p : Purpose} {w : Nat} (hi : f.calls[i]? = some (.joining p w))
    (hw : f.Live w) : g.calls[i]? = some (.joining p w) := by
  cases hs with
  | @call j c x y s handle hj hc =>
    by_cases hij : j = i
    · subst hij
      rw [hi] at hj
      cases hj
      obtain ⟨q, hq, hone⟩ := hw
      rw [hc.joining_ended] at hq
      cases hq
      cases hone
    · exact (List.getElem?_set_ne hij).trans hi
  | work => exact hi

/-- The session is stopped for good, no worker is about to be started, and the call waits for the one that is live. -/
structure Waited (i : Nat) (f : Floor) : Prop where
  final : f.session.runState.isFinal = true
  granted : ∀ x ∈ f.calls, x ≠ .granted
  live : ∀ w, f.Live w → f.calls[i]? = some (.joining .halt w)

theorem Waited.step (h : f.Waited i) (hs : Step f m g) (hm : m.rewinds = false) :
    g.Waited i ∧ m.starts = false := by
  have hstart := hs.starts_eq_false h.granted
  refine ⟨⟨(hs.final hm h.final).1, hs.ne_granted h.final h.granted, fun w hw => ?_⟩, hstart⟩
  have hlive := hs.live_of_live hstart hw
  exact hs.joining (h.live w hlive) hlive

theorem Waited.run (h : f.Waited i) (hr : f.run? moves = some g) (hm : ∀ m ∈ moves, m.rewinds = false) :
    g.Waited i ∧ ∀ m ∈ moves, m.starts = false :=
  run?_keeps (P := Waited i) (fun _ m _ hmem hs h => h.step hs (hm m hmem)) hr h

theorem Waited.not_live (h : f.Waited i) (hi : f.calls[i]? = some .idle) (w : Nat) : ¬ f.Live w := by
  intro hw
  have hjoin := h.live w hw
  rw [hi] at hjoin
  cases hjoin

/-! ## Looking for the handle -/

theorem waited_of_seek {f' : Floor} (hf : f.session.runState.isFinal = true) (hg : ∀ x ∈ f.calls, x ≠ .granted)
    (hl : ∀ w, f.Live w → f.handle = some w) (hi : f.calls[i]? = some (.seeking .halt)) (hh : f.home i = none)
    (hs : f.perform? (.call i .seek) = some f') : f'.Waited i := by
  have hstep := step_of_perform? hs
  refine ⟨(hstep.final rfl hf).1, hstep.ne_granted hf hg, fun w hw => ?_⟩
  have hhandle := hl w (hstep.live_of_live rfl hw)
  rw [perform?_seek_some hi hh hhandle] at hs
  cases hs
  exact List.getElem?_set_self (List.getElem?_eq_some_iff.1 hi).1

/-! ## The ways in which a halt returns early -/

/-- The handle is that of a worker who was started. -/
structure Bounded (f : Floor) : Prop where
  handle : ∀ w, f.handle = some w → w < f.workers.length
  returning : ∀ p w, .returning p w ∈ f.calls → w < f.workers.length

theorem Step.bounded (hs : Step f m g) (h : f.Bounded) : g.Bounded := by
  cases hs with
  | @call j c x y s handle hj hc =>
    obtain ⟨hhandle, hy⟩ := hc.bounded h.handle fun p w hx => h.returning p w (hx ▸ List.mem_of_getElem? hj)
    refine ⟨hhandle, fun p w hmem => ?_⟩
    rcases List.mem_or_eq_of_mem_set hmem with hmem | hmem
    · show w < (f.workers ++ c.hired).length
      rw [List.length_append]
      exact Nat.lt_add_right _ (h.returning p w hmem)
    · exact hy p w hmem.symm
  | work =>
    have hlength : ∀ {w v : Nat} {q : Phase}, w < f.workers.length → w < (f.workers.set v q).length := by
      intro w v q hw
      rw [List.length_set]
      exact hw
    exact ⟨fun w hw => hlength (h.handle w hw), fun p w hmem => hlength (h.returning p w hmem)⟩

theorem bounded_of_run? {s : Session} {n : Nat} {home : Nat → Option Nat} (hr : (of s n home).run? moves = some f) :
    f.Bounded := by
  have hbounded : (of s n home).Bounded := by
    refine ⟨nofun, fun p w hmem => ?_⟩
    cases List.eq_of_mem_replicate hmem
  exact (run?_keeps (fun _ _ _ _ hs h => ⟨hs.bounded h, trivial⟩) hr hbounded).1

theorem exists_run?_of_not_live {w : Nat} (hh : ∀ j, f.home j ≠ some w) (hlt : w < f.workers.length)
    (hw : ¬ f.Live w) : ∃ moves s, (∀ m ∈ moves, m.rewinds = false) ∧
      f.run? moves = some { f with session := s, workers := f.workers.set w (.telling []) } := by
  have hreports : ∀ es : List Event, ∀ m ∈ es.flatMap fun _ => [Move.work w .report, .work w .goOn],
      m.rewinds = false := by
    intro es m hm
    obtain ⟨e, -, hm⟩ := List.mem_flatMap.1 hm
    simp only [List.mem_cons, List.not_mem_nil, or_false] at hm
    rcases hm with rfl | rfl <;> rfl
  have hphase : f.workers[w]? = some (f.workers.get ⟨w, hlt⟩) := List.getElem?_eq_getElem hlt
  cases hp : f.workers.get ⟨w, hlt⟩ with
  | fresh | active | broken =>
    rw [hp] at hphase
    exact absurd ⟨_, hphase, rfl⟩ hw
  | telling es =>
    rw [hp] at hphase
    exact ⟨_, _, hreports es, run?_reports hh hphase⟩
  | heard es =>
    rw [hp] at hphase
    have hrest := run?_reports (f := { f with workers := f.workers.set w (.telling es) }) hh
      (List.getElem?_set_self hlt)
    rw [List.set_set] at hrest
    exact ⟨_, _, List.forall_mem_cons.2 ⟨rfl, hreports es⟩, run?_cons.2 ⟨_, perform?_goOn hh hphase, hrest⟩⟩

/-- **A halt that does not find the handle of a live worker can return**, with the calls and the live workers as they
were. -/
theorem exists_return (hb : f.Bounded) (hh : ∀ j, f.home j = none) (hi : f.calls[i]? = some (.seeking .halt))
    (hw : ∀ w, f.handle = some w → ¬ f.Live w) : ∃ later r, f.run? (.call i .seek :: later) = some r ∧
      (∀ m ∈ later, m.rewinds = false) ∧ r.calls[i]? = some .idle ∧ r.handle = none ∧
      (∀ j, i ≠ j → r.calls[j]? = f.calls[j]?) ∧ ∀ w, f.Live w → r.Live w := by
  have hlt := (List.getElem?_eq_some_iff.1 hi).1
  have hidle : (f.calls.set i .idle)[i]? = some .idle := List.getElem?_set_self hlt
  have hothers : ∀ j, i ≠ j → (f.calls.set i .idle)[j]? = f.calls[j]? := fun j hj => List.getElem?_set_ne hj
  cases hhandle : f.handle with
  | none =>
    have hseek := perform?_seek_none hi hhandle
    exact ⟨[], _, run?_cons.2 ⟨_, hseek, rfl⟩, nofun, hidle, rfl, hothers, fun w h => h⟩
  | some u =>
    have hseek := perform?_seek_some hi (hh i) hhandle
    have hu := hw u hhandle
    have hbound := hb.handle u hhandle
    obtain ⟨moves, s, hm, hr⟩ := exists_run?_of_not_live
      (f := { f with calls := f.calls.set i (.joining .halt u), handle := none }) (fun j => by simp [hh]) hbound hu
    have hjoin := perform?_join (f := { f with
      session := s, calls := f.calls.set i (.joining .halt u), workers := f.workers.set u (.telling [])
      handle := none })
      (List.getElem?_set_self hlt) (List.getElem?_set_self hbound)
    simp only [List.set_set] at hjoin
    have hrun := (run?_append hr).trans ((run?_singleton _ (.call i .join)).trans hjoin)
    refine ⟨moves ++ [.call i .join], _, run?_cons.2 ⟨_, hseek, hrun⟩, ?_, hidle, rfl, hothers, fun w h => ?_⟩
    · exact List.forall_mem_append.2 ⟨hm, List.forall_mem_cons.2 ⟨rfl, nofun⟩⟩
    · obtain ⟨p, hp, hone⟩ := h
      have hne : u ≠ w := by
        rintro rfl
        exact hu ⟨p, hp, hone⟩
      exact ⟨p, (List.getElem?_set_ne hne).trans hp, hone⟩

theorem Held.not_live_of_granted (h : f.Held) {j : Nat} (hj : f.calls[j]? = some .granted) (w : Nat) : ¬ f.Live w := by
  rintro ⟨p, hp, hone⟩
  have hcall : Stage.holds .granted ≤ weigh Stage.holds f.calls := weight_le_weigh hj
  have hwork : p.live ≤ weigh Phase.live f.workers := weight_le_weigh hp
  have hholds : Stage.holds .granted = 1 := rfl
  have hrunning : f.session.running.toNat ≤ 1 := Bool.toNat_le _
  unfold Held total at h
  omega

/-- A halt that looks for the handle now returns when no worker is live, and none is started until a reset. -/
def HaltWaits (f : Floor) (i : Nat) : Prop :=
  ∀ later r, f.run? (.call i .seek :: later) = some r → (∀ m ∈ later, m.rewinds = false) →
    r.calls[i]? = some .idle → (∀ w, ¬ r.Live w) ∧
      ∀ last r', r.run? last = some r' → (∀ m ∈ last, m.rewinds = false) → ∀ m ∈ last, m.starts = false

theorem haltWaits_of_handle (hf : f.session.runState.isFinal = true) (hg : ∀ x ∈ f.calls, x ≠ .granted)
    (hl : ∀ w, f.Live w → f.handle = some w) (hi : f.calls[i]? = some (.seeking .halt)) (hh : f.home i = none) :
    f.HaltWaits i := by
  intro later r hr hm hidle
  obtain ⟨f', hs, hr⟩ := run?_cons.1 hr
  have hwaited := ((waited_of_seek hf hg hl hi hh hs).run hr hm).1
  exact ⟨hwaited.not_live hidle, fun last r' hr' hm' => (hwaited.run hr' hm').2⟩

theorem ne_granted_of_haltWaits (h : f.HaltWaits i) (hheld : f.Held) (hb : f.Bounded) (hh : ∀ j, f.home j = none)
    (hi : f.calls[i]? = some (.seeking .halt)) : ∀ x ∈ f.calls, x ≠ .granted := by
  rintro x hx rfl
  obtain ⟨j, hj⟩ := List.mem_iff_getElem?.1 hx
  have hij : i ≠ j := by
    rintro rfl
    rw [hi] at hj
    cases hj
  obtain ⟨later, r, hr, hm, hidle, hhandle, hothers, -⟩ :=
    exists_return hb hh hi fun w _ => hheld.not_live_of_granted hj w
  have hgranted : r.calls[j]? = some .granted := (hothers j hij).trans hj
  -- the play starts its worker when the halt has returned
  have hstart : CallSection.perform? (r.home j) r.workers .start .granted r.session r.handle =
      some (.idle, r.session, some r.workers.length) := by
    rw [hhandle]
    rfl
  have hlast := (run?_singleton r _).trans (perform?_call hgranted (.inl Stage.noConfusion) (.inr rfl) hstart)
  have hstarts := (h later r hr hm hidle).2 [.call j .start] _ hlast (by simp [Move.rewinds]) _ List.mem_cons_self
  cases hstarts

theorem handle_of_haltWaits (h : f.HaltWaits i) (hheld : f.Held) (hb : f.Bounded) (hh : ∀ j, f.home j = none)
    (hi : f.calls[i]? = some (.seeking .halt)) {w : Nat} (hw : f.Live w) : f.handle = some w := by
  refine Decidable.byContradiction fun hne => ?_
  have hother : ∀ u, f.handle = some u → ¬ f.Live u := by
    intro u hu hlive
    rw [hheld.live_unique hlive hw] at hu
    exact hne hu
  obtain ⟨later, r, hr, hm, hidle, -, -, hlive⟩ := exists_return hb hh hi hother
  exact (h later r hr hm hidle).1 w (hlive w hw)

/-- **Which halts return only when the worker is gone.**  Let a halt out of no report ask the program to stop and later,
with no reset on the way, look for the handle.  If at that point no play has been granted whose worker is still to be
started, and the handle of the live worker, if there is one, is in its place, the halt returns when no worker is live,
and none is started until a reset.  Where no call comes out of a report, this can be said of no other halt. -/
theorem halt_waits_iff {image : Image} {limits : Limits} {world : World} {s₀ : Session}
    (h₀ : Session.create? image limits world = some s₀) (n : Nat) (home : Nat → Option Nat) (history : List Move)
    {f f₁ g : Floor} (hf : (of s₀ n home).run? history = some f) (i : Nat) (hi : home i = none)
    (hhalt : f.perform? (.call i (.await .halt)) = some f₁)
    (between : List Move) (hbetween : f₁.run? between = some g) (hb : ∀ m ∈ between, m.rewinds = false)
    (hg : g.calls[i]? = some (.seeking .halt)) :
    ((∀ x ∈ g.calls, x ≠ .granted) ∧ (∀ w, g.Live w → g.handle = some w) → g.HaltWaits i) ∧
    ((∀ j, home j = none) → g.HaltWaits i → (∀ x ∈ g.calls, x ≠ .granted) ∧ ∀ w, g.Live w → g.handle = some w) := by
  have hrun : (of s₀ n home).run? (history ++ .call i (.await .halt) :: between) = some g := by
    rw [run?_append hf]
    exact run?_cons.2 ⟨f₁, hhalt, hbetween⟩
  have hhome : g.home = home := home_of_run? hrun
  constructor
  · rintro ⟨hgranted, hhandle⟩
    have hfinal₁ : f₁.session.runState.isFinal = true := (step_of_perform? hhalt).final_of_halt Purpose.noConfusion
    have hfinal := (final_of_run? hbetween hb hfinal₁).1
    have hi' : g.home i = none := by rw [hhome, hi]
    exact haltWaits_of_handle hfinal hgranted hhandle hg hi'
  · intro hnone hwaits
    have hheld : g.Held := held_of_create? h₀ hrun
    have hbounded : g.Bounded := bounded_of_run? hrun
    have hnone' : ∀ j, g.home j = none := by rwa [hhome]
    exact ⟨ne_granted_of_haltWaits hwaits hheld hbounded hnone' hg,
      fun w hw => handle_of_haltWaits hwaits hheld hbounded hnone' hg hw⟩

/-- A halt that finds the handle of the live worker waits for its end. -/
theorem halt_waits_iff_callOnce :
    ∃ r, (of (Desk.callOnceSession 100) 2 fun _ => none).run? [.call 0 .reserve, .call 0 .request, .call 0 .start,
        .call 1 (.await .halt), .call 1 .seek, .work 0 (.turn false), .call 1 .join] = some r ∧
      r.calls[1]? = some .idle ∧ ∀ w, ¬ r.Live w := by
  have hwaits := (halt_waits_iff (Desk.create?_callOnce 100) 2 (fun _ => none)
    [.call 0 .reserve, .call 0 .request, .call 0 .start] rfl 1 rfl rfl [] rfl (by decide) rfl).1
  refine ⟨_, rfl, rfl, (hwaits ⟨by decide, ?_⟩ [.work 0 (.turn false), .call 1 .join] _ rfl (by decide) rfl).1⟩
  rintro w ⟨p, hp, -⟩
  cases w with
  | zero => rfl
  | succ w => cases hp

/-- **Two halts that return early**: one finds the handle taken by a call that waits, and leaves the worker live; the
other comes between the grant of a play and its start, and the worker is started after its return. -/
theorem halt_returns_early :
    (∃ r, (of (Desk.callOnceSession 100) 3 fun _ => none).run? [.call 0 .reserve, .call 0 .request, .call 0 .start,
        .call 1 (.await .wait), .call 1 .seek, .call 2 (.await .halt), .call 2 .seek] = some r ∧
      r.calls[2]? = some .idle ∧ r.Live 0) ∧
    ∃ r, (of (Desk.callOnceSession 100) 2 fun _ => none).run? [.call 0 .reserve, .call 0 .request,
        .call 1 (.await .halt), .call 1 .seek] = some r ∧
      r.calls[1]? = some .idle ∧ ∃ r', r.run? [.call 0 .start] = some r' ∧ r'.Live 0 := by
  exact ⟨⟨_, rfl, rfl, _, rfl, rfl⟩, _, rfl, rfl, _, rfl, _, rfl, rfl⟩

end Floor

end PseudoVm
