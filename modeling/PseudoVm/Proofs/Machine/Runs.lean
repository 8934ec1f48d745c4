import PseudoVm.Machine.Evaluate
import PseudoVm.Proofs.Machine.Transition
/-!
# Machine.Runs: a run as successive steps

A run makes steps until the program has finished or one of them fails.  Every step that succeeds counts against the
limit, so fewer steps than the budget succeed (`Succeeds.lt_budget`), and a run ends where the steps say it does
(`run_of_finishes`, `runTraced_of_failure`) and never for want of fuel.
-/
namespace PseudoVm

namespace Machine

/-- Whether the first `n` steps succeed. -/
def Succeeds (m : Machine) (n : Nat) : Prop := ∀ j, j < n → (m.stepped j).step.1 = none

/-- What a step reports if it fails. -/
def failure? (m : Machine) : Option (Except Abort FaultReport) := m.step.1.map m.step.2.explain

/-- What the failing ones of the first `n` steps report, in order. -/
def failures (m : Machine) (n : Nat) : List (Except Abort FaultReport) :=
  (List.range n).filterMap fun j => (m.stepped j).failure?

/-- Whether the last of the first `n` steps fails with a report. -/
def FailsLast (m : Machine) (n : Nat) (r : Except Abort FaultReport) : Prop :=
  ∃ j, n = j + 1 ∧ (m.stepped j).failure? = some r

/-! ## Steps that succeed -/

theorem isDone_create? {image : Image} {limits : Limits} {world : World} {m : Machine}
    (h : create? image limits world = some m) : m.isDone = false := by
  obtain ⟨frame, -, rfl⟩ := Option.map_eq_some_iff.1 h
  rfl

theorem isDone_of_succeeds {m : Machine} (h : m.step.1 = none) : m.isDone = false := by
  obtain ⟨_, _, _, hd, -⟩ := step_none (show m.step = (none, m.step.2) by rw [← h])
  exact hd

/-- **A step that succeeds counts one instruction**, and the limit admitted it. -/
theorem executed_of_succeeds {m : Machine} (h : m.step.1 = none) :
    m.executed < m.limits.maxInstructions ∧ m.step.2.executed = m.executed + 1 := by
  obtain ⟨i, flow, m₁, -, hl, -, he, hm⟩ := step_none (show m.step = (none, m.step.2) by rw [← h])
  refine ⟨hl, ?_⟩
  rw [hm, settle_executed, flowTo_executed, he.fixed.2.2]
  rfl

theorem budget_of_succeeds {m : Machine} (h : m.step.1 = none) : m.step.2.budget < m.budget := by
  obtain ⟨hlt, he⟩ := executed_of_succeeds h
  unfold budget
  rw [step_limits, he]
  omega

theorem stepped_limits (m : Machine) : ∀ n, (m.stepped n).limits = m.limits
  | 0 => rfl
  | n + 1 => (step_limits _).trans (stepped_limits m n)

theorem stepped_succ (m : Machine) : ∀ n, m.stepped (n + 1) = m.step.2.stepped n
  | 0 => rfl
  | n + 1 => congrArg (fun m => m.step.2) (stepped_succ m n)

theorem succeeds_succ {m : Machine} {n : Nat} :
    m.Succeeds (n + 1) ↔ m.Succeeds n ∧ (m.stepped n).step.1 = none := by
  constructor
  · intro h
    exact ⟨fun j hj => h j (Nat.lt_succ_of_lt hj), h n (Nat.lt_succ_self n)⟩
  · rintro ⟨h, hn⟩ j hj
    rcases Nat.lt_succ_iff_lt_or_eq.1 hj with hlt | rfl
    · exact h j hlt
    · exact hn

theorem Succeeds.mono {m : Machine} {n k : Nat} (h : m.Succeeds n) (hk : k ≤ n) : m.Succeeds k :=
  fun j hj => h j (Nat.lt_of_lt_of_le hj hk)

theorem Succeeds.executed {m : Machine} : ∀ {n : Nat}, m.Succeeds n → (m.stepped n).executed = m.executed + n
  | 0, _ => rfl
  | n + 1, h => by
    obtain ⟨hn, hs⟩ := succeeds_succ.1 h
    have hnext : (m.stepped (n + 1)).executed = (m.stepped n).executed + 1 := (executed_of_succeeds hs).2
    rw [hnext, hn.executed]
    rfl

/-- **Fewer steps than the budget succeed.** -/
theorem Succeeds.lt_budget {m : Machine} {n : Nat} (h : m.Succeeds n) : n < m.budget := by
  unfold budget
  cases n with
  | zero => omega
  | succ n =>
    obtain ⟨hn, hs⟩ := succeeds_succ.1 h
    have hlt := (executed_of_succeeds hs).1
    rw [hn.executed, stepped_limits] at hlt
    omega

/-! ## Runs -/

theorem Succeeds.runFor {m : Machine} (fuel : Nat) : ∀ {n : Nat}, m.Succeeds n →
    m.runFor (n + fuel) = (m.stepped n).runFor fuel
  | 0, _ => by rw [Nat.zero_add]; rfl
  | n + 1, h => by
    obtain ⟨hn, hs⟩ := succeeds_succ.1 h
    rw [Nat.add_right_comm, Nat.add_assoc, hn.runFor (fuel + 1), Machine.runFor, isDone_of_succeeds hs]
    have hstep : (m.stepped n).step = (none, m.stepped (n + 1)) := by rw [← hs]; rfl
    rw [hstep]
    rfl

theorem Succeeds.run {m : Machine} {n : Nat} (h : m.Succeeds n) :
    ∃ fuel, m.run = (m.stepped n).runFor (fuel + 1) := by
  refine ⟨m.budget - n - 1, ?_⟩
  have hlt := h.lt_budget
  have hfuel : n + (m.budget - n - 1 + 1) = m.budget := by omega
  rw [← h.runFor, hfuel]
  rfl

/-- **A run whose steps succeed until the program has finished ends there.** -/
theorem run_of_finishes {m : Machine} {n : Nat} (h : m.Succeeds n) (hd : (m.stepped n).isDone = true) :
    m.run = (none, m.stepped n) := by
  obtain ⟨fuel, hr⟩ := h.run
  rw [hr, runFor, if_pos hd]

theorem runTraced_eq_ok_none {m : Machine} : m.runTraced.1 = .ok none ↔ m.run.1 = none := by
  unfold runTraced
  cases hr : m.run with
  | mk stop m' =>
    cases stop with
    | none => exact ⟨fun _ => rfl, fun _ => rfl⟩
    | some s =>
      constructor
      · intro h
        simp only at h
        cases he : m'.explain s <;> rw [he] at h <;> cases h
      · intro h
        cases h

/-- **A run ends with the first step that fails.** -/
theorem run_of_fails {m : Machine} {n : Nat} {s : Stop} (h : m.Succeeds n) (hd : (m.stepped n).isDone = false)
    (hs : (m.stepped n).step.1 = some s) : m.run = (some s, m.stepped (n + 1)) := by
  obtain ⟨fuel, hr⟩ := h.run
  have hstep : (m.stepped n).step = (some s, m.stepped (n + 1)) := by rw [← hs]; rfl
  rw [hr, runFor, hd, hstep]
  rfl

/-! ## Steps that fail -/

theorem failures_succ (m : Machine) (n : Nat) :
    m.failures (n + 1) = m.failures n ++ (m.stepped n).failure?.toList := by
  rw [failures, List.range_succ, List.filterMap_append]
  refine congrArg _ ?_
  simp only [List.filterMap_cons, List.filterMap_nil]
  cases (m.stepped n).failure? <;> rfl

/-- **A step that fails leaves control where it was, and the program unfinished.** -/
theorem fixed_of_fails {m : Machine} {s : Stop} (h : m.step.1 = some s) :
    m.step.2.pc = m.pc ∧ m.step.2.isDone = m.isDone := by
  obtain ⟨k, -, hst, -⟩ := step_some (show m.step = (some s, m.step.2) by rw [← h])
  exact ⟨hst.pc, hst.isDone⟩

theorem isDone_of_failure {m : Machine} {r : Except Abort FaultReport} (h : m.failure? = some r) :
    m.step.2.isDone = m.isDone := by
  obtain ⟨s, hs, -⟩ := Option.map_eq_some_iff.1 h
  exact (fixed_of_fails hs).2

theorem failure?_eq_none {m : Machine} : m.failure? = none ↔ m.step.1 = none := Option.map_eq_none_iff

theorem failures_eq_nil {m : Machine} {n : Nat} : m.failures n = [] ↔ m.Succeeds n := by
  simp only [failures, List.filterMap_eq_nil_iff, List.mem_range, failure?_eq_none]
  rfl

theorem FailsLast.unique {m : Machine} {n : Nat} {r r' : Except Abort FaultReport} (h : m.FailsLast n r)
    (h' : m.FailsLast n r') : r = r' := by
  obtain ⟨j, rfl, hj⟩ := h
  obtain ⟨_, hn, hj'⟩ := h'
  cases hn
  exact Option.some.inj (hj.symm.trans hj')

theorem FailsLast.succeeds {m : Machine} {n : Nat} {r r' : Except Abort FaultReport} (h : m.FailsLast n r)
    (hf : m.failures n = [r']) : m.Succeeds (n - 1) := by
  obtain ⟨j, rfl, hj⟩ := h
  rw [failures_succ, hj, Option.toList_some] at hf
  exact failures_eq_nil.1 (List.append_eq_singleton_iff.1 hf |>.elim (fun h => h.1) fun h => by cases h.2)

/-- **A run ends with what its first failing step reports.** -/
theorem runTraced_of_failure {m : Machine} {n : Nat} {r : Except Abort FaultReport} (h : m.Succeeds n)
    (hd : (m.stepped n).isDone = false) (hf : (m.stepped n).failure? = some r) : m.runTraced.1 = r.map some := by
  obtain ⟨s, hs, rfl⟩ := Option.map_eq_some_iff.1 hf
  rw [runTraced, run_of_fails h hd hs]
  rfl

end Machine

end PseudoVm
