import PseudoVm.Proofs.Machine.CallReturn
import PseudoVm.Proofs.Session.PendingStep
/-!
# Session.StepLanding: where a step over or out lands

A step records numbers alone: an offset, a line and a depth.  That it still ends in the right activation is a matter of
how the depth evolves.  The frame that is on top when the step is armed is under way until the depth falls below its
own, and the instruction with which it does is its return (`Machine.UnderWay.below`); in between, wherever the depth is
its own, it is on top itself (`Machine.UnderWay.head`).  So a step over ends in that frame or behind its call, and a
step out behind its call (`Session.step_lands`).
-/
namespace PseudoVm

namespace Machine

variable {m m' : Machine} {callee : Outline} {base : List Frame}

theorem Returns.depth (h : Returns callee base m m') : m'.depth = base.length := by
  obtain ⟨_, _, caller, rest, -, -, -, -, hbelow, hst, -⟩ := h
  have hlen := congrArg List.length hbelow
  rw [List.length_map, List.length_map] at hlen
  rw [← hlen, Machine.depth, hst]
  rfl

theorem Returns.pc (h : Returns callee base m m') : m'.pc = callee.returnPc + 1 := by
  obtain ⟨_, _, _, _, -, -, -, -, -, -, hpc⟩ := h
  exact hpc

namespace UnderWay

/-- **At its own depth the activation is on top.** -/
theorem head (h : m.UnderWay callee base) (hd : m.depth = base.length + 1) :
    ∃ f rest, m.stack = f :: rest ∧ f.outline = callee := by
  obtain ⟨calls, f, below, hdrop, hf, hbelow⟩ := h
  have hlen := congrArg List.length hdrop
  have hbase := congrArg List.length hbelow
  rw [List.length_drop, List.length_cons] at hlen
  rw [List.length_map, List.length_map] at hbase
  rw [Machine.depth] at hd
  obtain rfl : calls = 0 := by omega
  exact ⟨f, below, hdrop, hf⟩

theorem of_deep (h : m.UnderWay callee base) {n : Nat} (hn : m.Succeeds n)
    (hdeep : ∀ j, j ≤ n → base.length < (m.stepped j).depth) : (m.stepped n).UnderWay callee base := by
  rcases h.stepped hn fun j hj => Nat.ne_of_gt (hdeep j hj) with hu | hnil
  · exact hu
  · have hpos := hdeep n (Nat.le_refl n)
    rw [Machine.depth, hnil] at hpos
    exact absurd hpos (Nat.not_lt_zero _)

/-- **When the depth first falls below its own, it has just returned**, unless the program has ended. -/
theorem below (h : m.UnderWay callee base) {n : Nat} (hn : m.Succeeds n) (hlive : (m.stepped n).isDone = false)
    (hdeep : ∀ j, j < n → base.length < (m.stepped j).depth) (hlow : (m.stepped n).depth ≤ base.length) :
    (m.stepped n).depth = base.length ∧ (m.stepped n).pc = callee.returnPc + 1 := by
  cases n with
  | zero => exact absurd h.lt_depth (Nat.not_lt_of_le hlow)
  | succ j =>
    obtain ⟨hj, hs⟩ := succeeds_succ.1 hn
    have hstep : (m.stepped j).step = (none, m.stepped (j + 1)) := by rw [← hs]; rfl
    rcases (h.of_deep hj fun k hk => hdeep k (Nat.lt_succ_of_le hk)).step hstep with hu | hnil | hr
    · exact absurd hu.lt_depth (Nat.not_lt_of_le hlow)
    · rw [isDone, hnil] at hlive
      cases hlive
    · exact ⟨hr.depth, hr.pc⟩

end UnderWay

end Machine

/-- Whether two offsets are different places. -/
def Granularity.Differ (t : LineTable) (pc pc' : Nat) : Granularity → Prop
  | .line => t.lineAt pc' ≠ t.lineAt pc
  | .instruction => pc' ≠ pc

namespace Session

variable {s played : Session} {kind : StepKind} {g : Granularity} {request : StepRequest}

/-- Where the program stands after so many more instructions. -/
def placeAfter (s : Session) (n : Nat) : Place :=
  ⟨(s.machine.stepped n).pc, s.table.lineAt (s.machine.stepped n).pc, (s.machine.stepped n).depth⟩

/-! ## Bursts that pause -/

/-- What a burst with a pending step has found out where it stops, or does not. -/
inductive StopsFor (s : Session) (request : StepRequest) (n : Nat) : Option StopPoint → Prop
  | finished : StopsFor s request n (some .finished)
  | breakpoint (h : s.breaksAt (s.machine.stepped n).pc = true) : StopsFor s request n (some .breakpoint)
  | step (hd : 1 ≤ n → (s.machine.stepped n).isDone = false) (h : request.shouldPause (s.placeAfter n) = true) :
    StopsFor s request n (some .step)
  | failure (stop : Stop) (h : request.shouldPause (s.placeAfter n) = false) :
    StopsFor s request n (some (.failure stop))
  | none (h : request.shouldPause (s.placeAfter n) = false) : StopsFor s request n .none

theorem stopsFor (hstep : s.step = some request) (n : Nat) : StopsFor s request n (s.stopPoint? n) := by
  unfold stopPoint?
  rw [hstep]
  dsimp only
  split
  · exact .finished
  rename_i hdone
  split
  · rename_i hbreak
    exact .breakpoint hbreak.2
  split
  · rename_i hpause
    exact .step (fun hn => Bool.eq_false_iff.2 fun hd => hdone ⟨hn, hd⟩) hpause
  · rename_i hpause
    cases (s.machine.stepped n).step.1 with
    | none => exact .none (Bool.eq_false_iff.2 hpause)
    | some stop => exact .failure stop (Bool.eq_false_iff.2 hpause)

theorem burst_of_entry (hr : s.runState = .running) (hn : s.noDebug = false) (he : s.stopOnEntry = true) :
    s.burst = { s with stopOnEntry := false }.pausedFor .entry := by
  have henter : s.enter = ended ({ s with stopOnEntry := false }.pausedFor .entry) := by
    unfold enter
    rw [if_neg (not_not_intro hr), if_pos he]
    dsimp only
    rw [hn]
    rfl
  unfold burst
  rw [henter]
  rfl

/-- **A burst that pauses for a step has executed instructions up to the first place that ends it.** -/
theorem burst_of_step (hr : s.runState = .running) (hn : s.noDebug = false) (hd : s.machine.isDone = false)
    (hstep : s.step = some request) (ho : s.burst.1 = .paused .step) : ∃ n, s.machine.Succeeds n ∧
      s.burst.2.machine = s.machine.stepped n ∧ (s.machine.stepped n).isDone = false ∧
      request.shouldPause (s.placeAfter n) = true ∧ ∀ j, j < n → request.shouldPause (s.placeAfter j) = false := by
  have he : s.stopOnEntry = false := by
    refine Bool.eq_false_iff.2 fun he => ?_
    rw [burst_of_entry hr hn he] at ho
    cases ho
  obtain ⟨n, point, hbefore, hat, hburst⟩ := burst_eq_stopAt hr hn he hd
  rw [hburst] at ho ⊢
  obtain rfl := eq_step_of_stopAt ho
  have hpending : ∀ j, j < n → request.shouldPause (s.placeAfter j) = false := by
    intro j hj
    have hj' := stopsFor hstep j
    rw [hbefore j hj] at hj'
    cases hj' with
    | none h => exact h
  have hn' := stopsFor hstep n
  rw [hat] at hn'
  cases hn' with
  | step hlive hpause =>
    refine ⟨n, fun j hj => (of_stopPoint?_eq_none (hbefore j hj)).1, rfl, ?_, hpause, hpending⟩
    cases n with
    | zero => exact hd
    | succ n => exact hlive (Nat.le_add_left 1 n)

theorem burst_of_pause {reason : PauseReason} (hr : s.runState = .running) (hn : s.noDebug = false)
    (hd : s.machine.isDone = false) (hstep : s.step = some request) (hb : ∀ pc, s.breaksAt pc = false)
    (ho : s.burst.1 = .paused reason) :
    reason = .step ∨ s.burst.2.machine = s.machine := by
  cases he : s.stopOnEntry with
  | true =>
    rw [burst_of_entry hr hn he]
    exact .inr rfl
  | false =>
    obtain ⟨n, point, -, hat, hburst⟩ := burst_eq_stopAt hr hn he hd
    rw [hburst] at ho
    cases point with
    | step =>
      cases ho
      exact .inl rfl
    | finished => cases ho
    | breakpoint =>
      have hn' := stopsFor hstep n
      rw [hat] at hn'
      cases hn' with
      | breakpoint hbreak =>
        rw [hb] at hbreak
        cases hbreak
    | failure stop =>
      simp only [stopAt] at ho
      split at ho
      · cases ho
      · rename_i a _
        cases a <;> cases ho

/-! ## Where steps end -/

theorem shouldPause_out {origin now : Place} :
    (StepRequest.mk .out g origin).shouldPause now = true ↔ now.depth < origin.depth := by
  unfold StepRequest.shouldPause
  exact decide_eq_true_iff

theorem shouldPause_over {origin now : Place} : (StepRequest.mk .over g origin).shouldPause now = true ↔
    now.depth < origin.depth ∨ now.depth = origin.depth ∧ (StepRequest.mk .over g origin).moved now = true := by
  unfold StepRequest.shouldPause
  simp

theorem differ_of_moved {n : Nat} (h : (StepRequest.mk kind g s.place).moved (s.placeAfter n) = true) :
    g.Differ s.table s.machine.pc (s.machine.stepped n).pc := by
  cases g <;> exact bne_iff_ne.1 h

theorem le_of_shouldPause {n : Nat} (hk : kind ≠ .into)
    (h : (StepRequest.mk kind g s.place).shouldPause (s.placeAfter n) = true) :
    (s.machine.stepped n).depth ≤ s.machine.depth := by
  match kind, hk, h with
  | .into, hk, _ => exact absurd rfl hk
  | .out, _, h => exact Int.ofNat_le.1 (Int.le_of_lt (shouldPause_out.1 h))
  | .over, _, h =>
    rcases shouldPause_over.1 h with hlt | ⟨he, -⟩
    · exact Int.ofNat_le.1 (Int.le_of_lt hlt)
    · exact Int.ofNat_le.1 (Int.le_of_eq he)

theorem le_of_not_shouldPause {n : Nat} (hk : kind ≠ .into)
    (h : (StepRequest.mk kind g s.place).shouldPause (s.placeAfter n) = false) :
    s.machine.depth ≤ (s.machine.stepped n).depth := by
  refine Nat.le_of_not_lt fun hlt => Bool.eq_false_iff.1 h ?_
  match kind, hk with
  | .into, hk => exact absurd rfl hk
  | .out, _ => exact shouldPause_out.2 (Int.ofNat_lt.2 hlt)
  | .over, _ => exact shouldPause_over.2 (.inl (Int.ofNat_lt.2 hlt))

theorem differ_of_shouldPause {n : Nat} (hk : kind ≠ .into)
    (h : (StepRequest.mk kind g s.place).shouldPause (s.placeAfter n) = true)
    (hsame : (s.machine.stepped n).depth = s.machine.depth) :
    kind = .over ∧ g.Differ s.table s.machine.pc (s.machine.stepped n).pc := by
  have hnot : ¬ (s.placeAfter n).depth < s.place.depth := Int.not_lt.2 (Int.le_of_eq (congrArg Int.ofNat hsame.symm))
  match kind, hk, h with
  | .into, hk, _ => exact absurd rfl hk
  | .out, _, h => exact absurd (shouldPause_out.1 h) hnot
  | .over, _, h => exact ⟨rfl, differ_of_moved ((shouldPause_over.1 h).resolve_left hnot).2⟩

/-- **A step over or out that ends has left its frame and stands behind the call, or stands in the frame**, which a step
out does not do. -/
theorem landing {frame : Frame} {below : List Frame} (hs : s.machine.stack = frame :: below)
    (hr : s.runState = .running) (hn : s.noDebug = false) (hstep : s.step = some ⟨kind, g, s.place⟩) (hk : kind ≠ .into)
    (ho : s.burst.1 = .paused .step) :
    let after := s.burst.2.machine
    after.depth = below.length ∧ after.pc = frame.returnPc + 1 ∨
    kind = .over ∧ ∃ n top rest, s.machine.Succeeds n ∧ after = s.machine.stepped n ∧
      (∀ j, j ≤ n → below.length + 1 ≤ (s.machine.stepped j).depth) ∧
      after.depth = below.length + 1 ∧ after.stack = top :: rest ∧ top.outline = frame.outline ∧
      g.Differ s.table s.machine.pc after.pc := by
  intro after
  have hd : s.machine.isDone = false := by rw [Machine.isDone, hs]; rfl
  have hdepth : s.machine.depth = below.length + 1 := by rw [Machine.depth, hs]; rfl
  have hu : s.machine.UnderWay frame.outline below := ⟨0, frame, below, hs, rfl, rfl⟩
  obtain ⟨n, hsteps, hafter, hlive, hpause, hpending⟩ := burst_of_step hr hn hd hstep ho
  have hdeep : ∀ j, j < n → below.length + 1 ≤ (s.machine.stepped j).depth := by
    intro j hj
    rw [← hdepth]
    exact le_of_not_shouldPause hk (hpending j hj)
  rw [show after = s.machine.stepped n from hafter]
  rcases Nat.lt_or_ge below.length (s.machine.stepped n).depth with hlt | hlow
  · -- the step ends in the frame itself, which only a step over does
    have hsame : (s.machine.stepped n).depth = below.length + 1 :=
      Nat.le_antisymm (hdepth ▸ le_of_shouldPause hk hpause) hlt
    have hall : ∀ j, j ≤ n → below.length + 1 ≤ (s.machine.stepped j).depth := by
      intro j hj
      rcases Nat.lt_or_eq_of_le hj with hj | rfl
      · exact hdeep j hj
      · exact hlt
    obtain ⟨top, rest, hst, hout⟩ := (hu.of_deep hsteps hall).head hsame
    obtain ⟨hover, hdiffer⟩ := differ_of_shouldPause hk hpause (hsame.trans hdepth.symm)
    exact .inr ⟨hover, n, top, rest, hsteps, rfl, hall, hsame, hst, hout, hdiffer⟩
  · exact .inl (hu.below hsteps hlive hdeep hlow)

/-- The session once a step is armed and it is played. -/
def stepping (s : Session) (kind : StepKind) (g : Granularity) : Session :=
  { s with step := some ⟨kind, g, s.place⟩, running := true, runState := .running, exception := none }

theorem armStep_start (hn : s.noDebug = false) (hp : (s.armStep kind g).start = .ok played) :
    played = s.stepping kind g := by
  obtain ⟨-, hf, rfl⟩ := start_eq_ok.1 hp
  have hdone : s.done = false := by
    have hd := (refusal?_eq_none.1 hf).1
    unfold armStep at hd
    split at hd <;> exact hd
  have harm : s.armStep kind g = { s with step := some ⟨kind, g, s.place⟩ } := by
    unfold armStep
    rw [hn, hdone]
    rfl
  rw [harm]
  rfl

/-- **Where a step over or out lands.**  A session that is debugged is idle with a frame on top of others, and carries
no breakpoint; a step is armed and the session played, and nobody intervenes.  A step out that ends has left the frame
and stands behind its call.  A step over that ends either stands at another place in the frame, whose activation it has
not left in between, or has left it and stands behind its call.  And neither pauses, whatever for, in a call that the
frame makes. -/
theorem step_lands {frame : Frame} {below : List Frame} (hs : s.machine.stack = frame :: below) (hn : s.noDebug = false)
    (hb : ∀ pc, s.breaksAt pc = false) (hp : (s.armStep kind g).start = .ok played) :
    let after := played.burst.2.machine
    let behindCall := after.depth = below.length ∧ after.pc = frame.returnPc + 1
    (kind = .out → played.burst.1 = .paused .step → behindCall) ∧
    (kind = .over → played.burst.1 = .paused .step → behindCall ∨
      ∃ n top rest, s.machine.Succeeds n ∧ after = s.machine.stepped n ∧
        (∀ j, j ≤ n → below.length + 1 ≤ (s.machine.stepped j).depth) ∧
        after.depth = below.length + 1 ∧ after.stack = top :: rest ∧ top.outline = frame.outline ∧
        g.Differ s.table s.machine.pc after.pc) ∧
    (kind ≠ .into → ∀ reason, played.burst.1 = .paused reason → after.depth ≤ below.length + 1) := by
  intro after behindCall
  obtain rfl := armStep_start hn hp
  have hland := landing (s := s.stepping kind g) (g := g) hs rfl hn rfl
  refine ⟨?_, ?_, ?_⟩
  · rintro rfl ho
    rcases hland nofun ho with hbehind | ⟨hkind, -⟩
    · exact hbehind
    · cases hkind
  · rintro rfl ho
    exact (hland nofun ho).imp_right fun hover => hover.2
  · intro hk reason ho
    have hd : s.machine.isDone = false := by rw [Machine.isDone, hs]; rfl
    rcases burst_of_pause (s := s.stepping kind g) rfl hn hd rfl hb ho with rfl | hsame
    · rcases hland hk ho with ⟨hdepth, -⟩ | ⟨-, _, _, _, -, -, -, hdepth, -⟩
      · exact Nat.le_succ_of_le (Nat.le_of_eq hdepth)
      · exact Nat.le_of_eq hdepth
    · rw [show after = s.machine from hsame, Machine.depth, hs]
      exact Nat.le_refl _

theorem breaksAt_of_clear {m n : Nat} (hl : s.lineBreaks = .replicate m false) (hi : s.instBreaks = .replicate n false)
    (pc : Nat) : s.breaksAt pc = false := by
  rw [breaksAt, hl, hi, getD_clear, getD_clear]
  rfl

/-- The session of a program that calls a procedure once, idle on the first instruction behind the entry. -/
def insideCall : Session :=
  { Desk.callOnceSession 100 with machine := (Desk.callOnceSession 100).machine.stepped 2, runState := .paused }

/-- A step over ends on the next line of the procedure, and a step out behind its call. -/
theorem step_lands_insideCall :
    insideCall.machine.stack = [.fresh 1 2 0 [] 0, .fresh 0 0 0 [] 0] ∧ insideCall.machine.pc = 3 ∧
    (∃ played, (insideCall.armStep .over .line).start = .ok played ∧ played.burst.1 = .paused .step ∧
      played.burst.2.machine.depth = 2 ∧ played.burst.2.machine.pc = 4) ∧
    ∃ played, (insideCall.armStep .out .line).start = .ok played ∧ played.burst.1 = .paused .step ∧
      played.burst.2.machine.depth = 1 ∧ played.burst.2.machine.pc = 1 := by
  have hs : insideCall.machine.stack = [.fresh 1 2 0 [] 0, .fresh 0 0 0 [] 0] := rfl
  have hover : (insideCall.armStep .over .line).start = .ok (insideCall.stepping .over .line) := rfl
  have hout : (insideCall.armStep .out .line).start = .ok (insideCall.stepping .out .line) := rfl
  have hends : (insideCall.stepping .over .line).burst.1 = .paused .step := by decide
  have hleaves : (insideCall.stepping .out .line).burst.1 = .paused .step := by decide
  have hb : ∀ pc, insideCall.breaksAt pc = false := breaksAt_of_clear (m := 6) (n := 6) rfl rfl
  obtain ⟨-, hlands, -⟩ := step_lands hs rfl hb hover
  obtain ⟨hreturns, -⟩ := step_lands hs rfl hb hout
  refine ⟨hs, rfl, ⟨_, hover, hends, ?_, by decide⟩, _, hout, hleaves, hreturns rfl hleaves⟩
  rcases hlands rfl hends with ⟨-, hpc⟩ | ⟨_, _, _, -, -, -, hdepth, -⟩
  · exact absurd hpc (by decide)
  · exact hdepth

end Session

end PseudoVm
