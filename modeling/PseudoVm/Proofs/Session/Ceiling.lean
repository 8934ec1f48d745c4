import PseudoVm.Proofs.Library.Prompts
import PseudoVm.Proofs.Machine.StopReasons
import PseudoVm.Proofs.Session.FreshStart
import PseudoVm.Proofs.Session.Interleaving
/-!
# Session.Ceiling: the limit on instructions bounds every run

A run finishes within as many instructions as the limit admits, or all of those succeed and it stops for the limit, or
one of them is the first that fails and the run reports it (`Machine.Ends`).  In a session every instruction that a worker
starts is counted, whatever controllers do in between and whether it fails or not, until the program is put back to its
start, and there are never more than the limit admits (`Desk.executed_le_run`).
-/
namespace PseudoVm

namespace Machine

variable {m : Machine}

/-- **As far as its steps succeed,** no array contains itself and no object is larger than a block can be. -/
structure Tractable (m : Machine) : Prop where
  grounded : ∀ n, m.Succeeds n → (m.stepped n).world.heap.Grounded
  roomy : ∀ n cls nfields, n < m.limits.maxInstructions → m.Succeeds n →
    (m.stepped n).current?.map (·.op) = some (.objNew cls nfields) → nfields * Heap.fieldSize ≤ Bound.block

/-! ## How a run ends -/

theorem succeeds_or_fails (m : Machine) : ∀ n, m.Succeeds n ∨
    ∃ k s, k < n ∧ m.Succeeds k ∧ (m.stepped k).step.1 = some s
  | 0 => .inl fun j hj => absurd hj (Nat.not_lt_zero j)
  | n + 1 => by
    obtain hn | ⟨k, s, hk, hsucc, hs⟩ := m.succeeds_or_fails n
    · cases hs : (m.stepped n).step.1 with
      | none => exact .inl (succeeds_succ.2 ⟨hn, hs⟩)
      | some s => exact .inr ⟨n, s, Nat.lt_succ_self n, hn, hs⟩
    · exact .inr ⟨k, s, Nat.lt_succ_of_lt hk, hsucc, hs⟩

/-- **How a run ends**, by what it reports. -/
inductive Ends (m : Machine) : Except Abort (Option FaultReport) → Prop
  | finished {n : Nat} (hn : n ≤ m.limits.maxInstructions) (hs : m.Succeeds n) (hd : (m.stepped n).isDone = true) :
    Ends m (.ok none)
  | limited {p : FaultReport} (hs : m.Succeeds m.limits.maxInstructions)
      (hd : (m.stepped m.limits.maxInstructions).isDone = false) (hp : p.fault = .instructionLimit) :
    Ends m (.ok (some p))
  | failed {n : Nat} {p : FaultReport} (hn : n < m.limits.maxInstructions) (hs : m.Succeeds n)
      (hd : (m.stepped n).isDone = false) (hf : (m.stepped n).step.1 = some (.fault p.fault))
      (hl : p.fault ≠ .instructionLimit) :
    Ends m (.ok (some p))

namespace Ends

variable {r : Except Abort (Option FaultReport)}

theorem finished_iff (h : m.Ends m.runTraced.1) :
    m.runTraced.1 = .ok none ↔ ∃ n ≤ m.limits.maxInstructions, m.Succeeds n ∧ (m.stepped n).isDone = true := by
  constructor
  · intro hr
    rw [hr] at h
    cases h with
    | finished hn hs hd => exact ⟨_, hn, hs, hd⟩
  · rintro ⟨n, -, hs, hd⟩
    exact runTraced_eq_ok_none.2 (by rw [run_of_finishes hs hd])

theorem limited_iff (h : m.Ends r) : (∃ p, r = .ok (some p) ∧ p.fault = .instructionLimit) ↔
    m.Succeeds m.limits.maxInstructions ∧ (m.stepped m.limits.maxInstructions).isDone = false := by
  constructor
  · rintro ⟨p, rfl, hp⟩
    cases h with
    | limited hs hd => exact ⟨hs, hd⟩
    | failed _ _ _ _ hl => exact absurd hp hl
  · rintro ⟨hs, hd⟩
    cases h with
    | limited _ _ hp => exact ⟨_, rfl, hp⟩
    | finished hn _ hdone =>
      -- a program that has finished takes no step that succeeds
      obtain hlt | rfl := Nat.lt_or_eq_of_le hn
      · rw [isDone_of_succeeds (hs _ hlt)] at hdone
        cases hdone
      · rw [hd] at hdone
        cases hdone
    | failed hn _ _ hf =>
      rw [hs _ hn] at hf
      cases hf

end Ends

theorem runTraced_of_fails (hsound : m.Sound) (hm : m.Intact) (h₀ : m.executed = 0) (ht : m.Tractable) {n : Nat}
    (hs : m.Succeeds n) (hd : (m.stepped n).isDone = false) {s : Stop} (hf : (m.stepped n).step.1 = some s) :
    ∃ p : FaultReport, s = .fault p.fault ∧ m.runTraced.1 = .ok (some p) := by
  have hsn := (reachable_stepped m n).sound hsound
  have hground := ht.grounded n hs
  obtain ⟨f, rfl⟩ := exists_fault hsn (hm.stepped n).1 hground hd (fun hl cls nfields => by
    rw [hs.executed, h₀, Nat.zero_add, stepped_limits] at hl
    exact ht.roomy n cls nfields hl hs) hf
  obtain ⟨p, hfail, rfl⟩ := exists_failure hsn.named (showable_of_grounded hground) hf
  exact ⟨p, rfl, runTraced_of_failure hs hd hfail⟩

/-- **Every run ends**, and in one of the three ways. -/
theorem ends_runTraced (hsound : m.Sound) (hm : m.Intact) (h₀ : m.executed = 0) (ht : m.Tractable) :
    m.Ends m.runTraced.1 := by
  have hexec : ∀ {n}, m.Succeeds n → (m.stepped n).executed = n := fun hs => by rw [hs.executed, h₀, Nat.zero_add]
  have hlimit : ∀ {n}, m.Succeeds n → (m.stepped n).isDone = false →
      ((m.stepped n).step.1 = some (.fault .instructionLimit) ↔ m.limits.maxInstructions ≤ n) := by
    intro n hs hd
    rw [step_limit_iff hd, stepped_limits, hexec hs]
  obtain hs | ⟨k, s, hk, hs, hf⟩ := m.succeeds_or_fails m.limits.maxInstructions
  · cases hd : (m.stepped m.limits.maxInstructions).isDone with
    | true =>
      rw [runTraced_eq_ok_none.2 (by rw [run_of_finishes hs hd])]
      exact .finished (Nat.le_refl _) hs hd
    | false =>
      obtain ⟨p, hp, hrun⟩ := runTraced_of_fails hsound hm h₀ ht hs hd ((hlimit hs hd).2 (Nat.le_refl _))
      rw [hrun]
      exact .limited hs hd (Stop.fault.inj hp).symm
  · cases hd : (m.stepped k).isDone with
    | true =>
      rw [runTraced_eq_ok_none.2 (by rw [run_of_finishes hs hd])]
      exact .finished (Nat.le_of_lt hk) hs hd
    | false =>
      obtain ⟨p, rfl, hrun⟩ := runTraced_of_fails hsound hm h₀ ht hs hd hf
      rw [hrun]
      exact .failed hk hs hd hf fun hl => Nat.not_le.2 hk ((hlimit hs hd).1 (by rw [hf, hl]))

/-! ## The count of instructions -/

theorem executed_le_step (h : m.executed ≤ m.limits.maxInstructions) :
    m.step.2.executed ≤ m.limits.maxInstructions := by
  cases hd : m.isDone with
  | true =>
    rw [step_eq, if_pos hd, settle_executed]
    exact h
  | false =>
    rw [executed_step hd]
    split
    · exact h
    · rename_i hs
      exact Nat.not_le.1 (mt (step_limit_iff hd).2 hs)

theorem executed_le_runFor : ∀ (fuel : Nat) {m : Machine}, m.executed ≤ m.limits.maxInstructions →
    (m.runFor fuel).2.executed ≤ m.limits.maxInstructions
  | 0, _, h => h
  | fuel + 1, m, h => by
    have hstep := executed_le_step h
    have hlimits := step_limits m
    unfold runFor
    split
    · exact h
    · cases hs : m.step with
      | mk stop m' =>
        rw [hs] at hstep hlimits
        cases stop with
        | some s => exact hstep
        | none =>
          rw [← hlimits] at hstep ⊢
          exact executed_le_runFor fuel hstep

end Machine

namespace Desk

variable {d : Desk}

/-- Whether an act has an instruction started: a turn of a worker at an instruction that the limit admits. -/
def starts (d : Desk) : Act → Bool
  | .turn => d.session.working && d.entered && d.session.executes &&
      d.session.machine.step.1 != some (.fault .instructionLimit)
  | _ => false

/-- How many instructions have been started after an act, of so many before it.  A stuck session is not put back. -/
def tally (d : Desk) (n : Nat) : Act → Nat
  | .ask .rewind => if d.session.stuck then n else 0
  | a => n + (d.starts a).toNat

/-- **How many instructions have been started** after a schedule, of so many before it, since the program was put back to
its start last. -/
def started (d : Desk) (n : Nat) : List Act → Nat
  | [] => n
  | a :: acts => (d.perform a).started (d.tally n a) acts

theorem apply_counts {r : Request} (hr : r ≠ .rewind) (s : Session) :
    (r.apply s).machine.executed = s.machine.executed ∧ (r.apply s).machine.limits = s.machine.limits := by
  cases ht : r.isTransparent with
  | true => rw [(Session.controls_apply ht s).machine]; exact ⟨rfl, rfl⟩
  | false =>
    cases r with
    | suppress on => exact ⟨rfl, rfl⟩
    | rewind => exact absurd rfl hr
    | setVariable id which v =>
      rw [Request.apply, Session.setVariable]
      split
      · cases ha : s.machine.assign (which.cell (id - 1)) v with
        | error f => exact ⟨rfl, rfl⟩
        | ok m => exact ⟨(Machine.steady_assign ha).executed, (Machine.steady_assign ha).limits⟩
      · exact ⟨rfl, rfl⟩
    | restartFrame id =>
      rw [Request.apply, Session.restartFrame]
      split
      · exact ⟨rfl, rfl⟩
      split
      · exact ⟨rfl, rfl⟩
      cases hm : s.machine.restartFrame? id with
      | none => exact ⟨rfl, rfl⟩
      | some m =>
        obtain ⟨top, rest, -, hst⟩ := Machine.restartFrame?_eq_some hm
        exact ⟨hst.executed, hst.limits⟩
    | evaluate id code =>
      obtain ⟨w, hw⟩ := s.machine.evaluate_fixed id code
      have hmachine : (Request.apply s (.evaluate id code)).machine = s.machine ∨
          (Request.apply s (.evaluate id code)).machine = (s.machine.evaluate id code).2 := by
        rw [Request.apply, Session.evaluate]
        split
        · exact .inr rfl
        · exact .inl rfl
      obtain hmachine | hmachine := hmachine <;> rw [hmachine]
      · exact ⟨rfl, rfl⟩
      · rw [hw]
        exact ⟨rfl, rfl⟩
    | _ => cases ht

/-- **What a turn of the worker does to the program**: it takes a step, or nothing. -/
theorem turn_machine (d : Desk) : d.turn.session.machine =
    if d.session.working && d.entered && d.session.executes then d.session.machine.step.2 else d.session.machine := by
  cases hw : d.session.working with
  | false => rw [turn_of_not_working hw]; rfl
  | true =>
    have htook : ∀ r : Option Outcome × Session, (d.took r.1 r.2).session.machine = r.2.machine := by
      rintro ⟨o, s⟩
      cases o with
      | none => rfl
      | some o => exact Session.conclude_machine s o
    rw [turn_eq hw, htook]
    cases d.entered with
    | false => exact d.session.enter_machine
    | true => exact d.session.tick_machine

theorem executed_turn (d : Desk) :
    d.turn.session.machine.executed = d.session.machine.executed + (d.starts .turn).toNat := by
  rw [turn_machine, starts]
  cases he : d.session.working && d.entered && d.session.executes with
  | false => rfl
  | true =>
    have hd : d.session.machine.isDone = false := by
      have hexec := (Bool.and_eq_true_iff.1 he).2
      rw [Session.executes, Bool.and_eq_true_iff, Bool.and_eq_true_iff] at hexec
      exact Bool.not_eq_true' _ ▸ hexec.1.2
    rw [if_pos rfl, Machine.executed_step hd, Bool.true_and]
    split
    · rename_i hs
      rw [hs, bne_self_eq_false]
      rfl
    · rename_i hs
      rw [bne_iff_ne.2 hs]
      rfl

/-- **The program counts what is started**, from nothing when it is put back to its start. -/
theorem perform_counts (d : Desk) (a : Act) :
    (d.perform a).session.machine.executed = d.tally d.session.machine.executed a ∧
    (d.perform a).session.machine.limits = d.session.machine.limits := by
  cases a with
  | turn =>
    refine ⟨d.executed_turn, ?_⟩
    show d.turn.session.machine.limits = _
    rw [turn_machine]
    split
    · exact Machine.step_limits _
    · rfl
  | deliver =>
    obtain ⟨es, hes⟩ := d.deliver_session
    show d.deliver.session.machine.executed = _ ∧ d.deliver.session.machine.limits = _
    rw [hes]
    exact ⟨rfl, rfl⟩
  | ask r =>
    by_cases hr : r = .rewind
    · subst hr
      show (d.session.asked .rewind).machine.executed = (if d.session.stuck then d.session.machine.executed else 0) ∧
        (d.session.asked .rewind).machine.limits = d.session.machine.limits
      cases hk : d.session.stuck with
      | true =>
        have hwait : d.session.asked .rewind = d.session := by
          unfold Session.asked
          rw [hk]
          rfl
        rw [hwait]
        exact ⟨rfl, rfl⟩
      | false =>
        rw [Session.asked_of_not_stuck hk]
        exact ⟨d.session.machine.steady_rewind.executed, d.session.machine.steady_rewind.limits⟩
    · have hsame : d.tally d.session.machine.executed (.ask r) = d.session.machine.executed := by
        cases r <;> first | rfl | exact absurd rfl hr
      rw [hsame]
      exact Session.asked_keeps (P := fun s => s.machine.executed = d.session.machine.executed ∧
        s.machine.limits = d.session.machine.limits) ⟨rfl, rfl⟩ (apply_counts hr d.session)

theorem run_counts : ∀ (acts : List Act) (d : Desk),
    (d.run acts).session.machine.executed = d.started d.session.machine.executed acts ∧
    (d.run acts).session.machine.limits = d.session.machine.limits
  | [], _ => ⟨rfl, rfl⟩
  | a :: acts, d => by
    obtain ⟨hexec, hlimits⟩ := d.perform_counts a
    rw [run_cons, (run_counts acts _).1, (run_counts acts _).2, started, hexec, hlimits]
    exact ⟨rfl, rfl⟩

/-- **An act keeps the count within the limit.** -/
theorem executed_le_perform (a : Act) (h : d.session.machine.executed ≤ d.session.machine.limits.maxInstructions) :
    (d.perform a).session.machine.executed ≤ d.session.machine.limits.maxInstructions := by
  cases a with
  | turn =>
    show d.turn.session.machine.executed ≤ _
    rw [turn_machine]
    split
    · exact Machine.executed_le_step h
    · exact h
  | deliver => rw [(d.perform_counts .deliver).1]; exact h
  | ask r =>
    rw [(d.perform_counts (.ask r)).1]
    cases r with
    | rewind =>
      show (if d.session.stuck then d.session.machine.executed else 0) ≤ _
      split
      · exact h
      · exact Nat.zero_le _
    | _ => exact h

/-- **In a session there are never more than the limit admits.** -/
theorem executed_le_run : ∀ (acts : List Act) {d : Desk},
    d.session.machine.executed ≤ d.session.machine.limits.maxInstructions →
      (d.run acts).session.machine.executed ≤ d.session.machine.limits.maxInstructions
  | [], _, h => h
  | a :: acts, d, h => by
    have hfixed := (d.perform_counts a).2
    rw [run_cons, ← hfixed]
    exact executed_le_run acts (by rw [hfixed]; exact executed_le_perform a h)

end Desk

namespace Session

/-- **The limit on instructions bounds every run.**  A run of a program with a valid image ends, in one of three ways: it
finishes just if the call stack is empty after no more instructions than the limit admits; it stops for the limit just if
that many succeed and leave it unfinished; else it reports the first that fails.  For this, no array may contain itself,
and no object be larger than a block can be.  Asking for input ends where the input does.  In a session the instructions
that have been started since its beginning, or since the program was put back to its start, are never more than the
limit admits, whatever was done in between; an evaluation has a count of its own, within the same limit. -/
theorem instruction_ceiling {image : Image} {limits : Limits} {world : World} {m : Machine} (hv : image.isValid = true)
    (hc : world.heap.Closed world.Has) (hm : Machine.create? image limits world = some m) :
    (m.Tractable →
      (m.runTraced.1 = .ok none ↔ ∃ n ≤ limits.maxInstructions, m.Succeeds n ∧ (m.stepped n).isDone = true) ∧
      ((∃ p, m.runTraced.1 = .ok (some p) ∧ p.fault = .instructionLimit) ↔
        m.Succeeds limits.maxInstructions ∧ (m.stepped limits.maxInstructions).isDone = false) ∧
      m.Ends m.runTraced.1) ∧
    (∀ {α : Type} (d : Library.Dialogue α) (c : Console), d.Asks c (d.ask c)) ∧
    ∀ s, create? image limits world = some s → ∀ acts,
      ((Desk.of s).run acts).session.machine.executed = (Desk.of s).started 0 acts ∧
      (Desk.of s).started 0 acts ≤ limits.maxInstructions ∧
      ∀ f code, (((Desk.of s).run acts).session.machine.evaluator f code).run.2.executed ≤ limits.maxInstructions := by
  obtain ⟨h₀, hlimits⟩ : m.executed = 0 ∧ m.limits = limits := by
    obtain ⟨f, -, rfl⟩ := Option.map_eq_some_iff.1 hm
    exact ⟨rfl, rfl⟩
  refine ⟨fun ht => ?_, Library.Dialogue.asks_ask, fun s hs acts => ?_⟩
  · have hends := Machine.ends_runTraced (Machine.sound_create? hv hm) (Machine.Live.start hc hm).intact h₀ ht
    rw [← hlimits]
    exact ⟨hends.finished_iff, hends.limited_iff, hends⟩
  · obtain ⟨hcreate, -⟩ := create?_eq hs
    obtain rfl : m = s.machine := Option.some.inj (hm.symm.trans hcreate)
    obtain ⟨hexec, hfixed⟩ := Desk.run_counts acts (Desk.of s)
    have hcount : ((Desk.of s).run acts).session.machine.executed = (Desk.of s).started 0 acts := hexec.trans <| by
      rw [show (Desk.of s).session.machine.executed = 0 from h₀]
    have hle := Desk.executed_le_run acts (d := Desk.of s) (h₀ ▸ Nat.zero_le _)
    have hsame : ((Desk.of s).run acts).session.machine.limits = limits := hfixed.trans hlimits
    refine ⟨hcount, ?_, fun f code => ?_⟩
    · rw [← hcount, ← hlimits]
      exact hle
    · rw [← hsame]
      exact Machine.executed_le_runFor _ (Nat.zero_le _)

theorem tractable_callOnce : (Desk.callOnceSession 3).machine.Tractable := by
  have hfew : ∀ {n}, (Desk.callOnceSession 3).machine.Succeeds n → n ≤ 3 := fun hs => Nat.le_of_lt_succ hs.lt_budget
  refine ⟨fun n hs => ?_, fun n cls nfields _ hs hop => ?_⟩
  · have hn := hfew hs
    refine Heap.grounded_of_arrays ?_
    interval_cases n <;> rfl
  · have hn := hfew hs
    interval_cases n <;> cases hop

/-- Three instructions of a call, which has six: a run stops for the limit.  In a session that is played again and again,
also from a frame that is restarted, no more than three are started, until the program is put back to its start. -/
theorem instruction_ceiling_callOnce : Desk.callOnce.isValid = true ∧
    (∃ p, (Desk.callOnceSession 3).machine.runTraced.1 = .ok (some p) ∧ p.fault = .instructionLimit) ∧
    let again := [.ask .play, .turn, .turn, .turn, .turn, .turn, .ask (.restartFrame 2), .ask .play, .turn, .turn]
    ((Desk.of (Desk.callOnceSession 3)).run again).session.machine.executed = 3 ∧
    ((Desk.of (Desk.callOnceSession 3)).run (again ++ [.ask .rewind, .ask .play, .turn, .turn])).session.machine.executed
      = 1 := by
  have hv : Desk.callOnce.isValid = true := by decide
  have hcreate : Machine.create? Desk.callOnce { maxInstructions := 3 } (Desk.callOnceSession 3).machine.world =
      some (Desk.callOnceSession 3).machine := rfl
  obtain ⟨hrun, -, hsession⟩ := instruction_ceiling hv (World.closed_of_empty rfl rfl) hcreate
  obtain ⟨-, hlimit, -⟩ := hrun tractable_callOnce
  have hcount := fun acts => (hsession _ (Desk.create?_callOnce 3) acts).1
  refine ⟨hv, hlimit.2 ⟨?_, by decide⟩, ?_, ?_⟩
  · intro j hj
    interval_cases j <;> rfl
  · rw [hcount]
    decide
  · rw [hcount]
    decide

/-- A program with a valid image that asks for an object larger than a block can be. -/
def oversized : Image where
  code := #[⟨⟨1, 1⟩, .objNew 0 0x1000000000000000⟩, ⟨⟨1, 1⟩, .pop⟩, ⟨⟨2, 1⟩, .finish⟩]
  labels := #[]
  strings := #[]
  classes := #[⟨"Huge", [], #[]⟩]
  scopes := #[.global []]
  globalScope := 0

/-- It, about to start. -/
def oversizedStart : Machine :=
  ⟨oversized, {}, 0, [.fresh 0 0 0 [] 0], 0, none, [], [], (Desk.callOnceSession 0).machine.world⟩

/-- Its run makes no array, and ends in none of the three ways.  And a session whose program has used up a limit of two
instructions executes two more when it evaluates an expression. -/
theorem ceiling_passed : oversized.isValid = true ∧
    Machine.create? oversized {} (Desk.callOnceSession 0).machine.world = some oversizedStart ∧
    (∀ n, oversizedStart.Succeeds n → (oversizedStart.stepped n).world.heap.Grounded) ∧
    oversizedStart.runTraced.1 = .error .noRoom ∧
    let d := Desk.of (Desk.callOnceSession 2)
    let acts := [.ask .play, .turn, .turn, .turn, .turn]
    let code : List Instruction := [⟨⟨9, 1⟩, .litInt 1⟩, ⟨⟨9, 1⟩, .halt 1⟩]
    d.started 0 acts = 2 ∧ ((d.run acts).session.evaluate 1 code).1 = .ok (.ok (.int 1)) ∧
    ∃ f, (d.run acts).session.machine.frame? 0 = some f ∧
      ((d.run acts).session.machine.evaluator f code).run.2.executed = 2 := by
  refine ⟨by decide, rfl, fun n hs => ?_, rfl, by decide, rfl, _, rfl, rfl⟩
  cases n with
  | zero => exact Heap.grounded_of_arrays rfl
  | succ n => exact Bool.noConfusion (congrArg Option.isNone (hs 0 (Nat.succ_pos n)))

end Session

end PseudoVm
