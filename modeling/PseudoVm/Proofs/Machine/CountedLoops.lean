import PseudoVm.Proofs.Machine.IntegerOperators
/-!
# Machine.CountedLoops: how often a counted loop goes on

A counted loop over integers starts with one instruction and advances with another; each pushes whether the loop goes
on.  At turn `k` the variable has the start and `k` steps, wrapped around at 64 bits (`Turn.step_turned`).  In integers
of any size the loop goes on as long as `k` is below the number of its passes (`Counting.goesOn_iff_lt_passes`), and up
to there nothing wraps around.  At the number of passes it ends if the value fits in 64 bits; if it does not, the variable
wraps around to where the loop goes on (`Counting.goesOn_wrapped`, `Machine.counted_loop`).
-/
namespace PseudoVm

/-! ## Counting -/

/-- The bounds of a counted loop, as integers of any size. -/
structure Counting where
  start : Int
  stop : Int
  step : Int

namespace Counting

/-- The value at a turn. -/
def value (c : Counting) (k : Nat) : Int := c.start + k * c.step

/-- Whether a loop goes on at a value: up to `stop`, or down to it if the step is negative. -/
def GoesOn (c : Counting) (value : Int) : Prop := if 0 ≤ c.step then value ≤ c.stop else c.stop ≤ value

/-- How many passes a loop makes in integers of any size: `max 0 (⌊(stop - start) / step⌋ + 1)`. -/
def passes (c : Counting) : Nat := ((c.stop - c.start).fdiv c.step + 1).toNat

/-- A number fits in 64 bits. -/
def Fits (x : Int) : Prop := -2 ^ 63 ≤ x ∧ x < 2 ^ 63

/-- The bounds of a loop over integers of 64 bits. -/
structure Bounded (c : Counting) : Prop where
  start : Fits c.start
  stop : Fits c.stop
  step : Fits c.step
  step_ne_zero : c.step ≠ 0

variable {c : Counting} {k : Nat} {x : Int}

theorem value_succ (c : Counting) (k : Nat) : c.value (k + 1) = c.value k + c.step := by
  unfold value
  rw [Int.natCast_add_one, Int.add_mul, Int.one_mul, Int.add_assoc]

/-- **The loop goes on as long as the turn is below the number of passes.** -/
theorem goesOn_iff_lt_passes (hstep : c.step ≠ 0) (k : Nat) : c.GoesOn (c.value k) ↔ k < c.passes := by
  unfold GoesOn value passes
  rw [Int.lt_toNat, Int.lt_add_one_iff]
  split
  · rename_i hnonneg
    rw [Int.fdiv_eq_ediv_of_nonneg _ hnonneg, Int.le_ediv_iff_mul_le (by omega)]
    omega
  · rename_i hneg
    rw [← Int.neg_fdiv_neg, Int.fdiv_eq_ediv_of_nonneg _ (by omega), Int.le_ediv_iff_mul_le (by omega), Int.mul_neg]
    omega

theorem fits_value (hc : c.Bounded) (hk : k < c.passes) : Fits (c.value k) := by
  have hgoes := (goesOn_iff_lt_passes hc.step_ne_zero k).2 hk
  obtain ⟨hstart, hstop, -, -⟩ := hc
  unfold Fits at *
  unfold GoesOn at hgoes
  have hvalue : c.value k = c.start + k * c.step := rfl
  split at hgoes
  · rename_i hnonneg
    have := Int.mul_nonneg (Int.natCast_nonneg k) hnonneg
    omega
  · rename_i hneg
    have := Int.mul_nonpos_of_nonneg_of_nonpos (Int.natCast_nonneg k) (Int.le_of_lt (Int.not_le.1 hneg))
    omega

theorem bmod_of_fits (hx : Fits x) : x.bmod (2 ^ 64) = x := by
  unfold Fits at hx
  rw [Int.bmod_def]
  omega

/-- **A value that does not fit after the last pass wraps around to one where the loop goes on**: it went past the
bounds of 64 bits by less than a step, and comes back at the other end. -/
theorem goesOn_wrapped (hc : c.Bounded) (hfits : ¬ Fits (c.value c.passes)) :
    c.GoesOn ((c.value c.passes).bmod (2 ^ 64)) := by
  cases hpasses : c.passes with
  | zero =>
    refine absurd ?_ hfits
    have hvalue : c.value c.passes = c.start := by
      rw [value, hpasses]
      omega
    rw [hvalue]
    exact hc.start
  | succ k =>
    have hk : k < c.passes := by omega
    have hgoes := (goesOn_iff_lt_passes hc.step_ne_zero k).2 hk
    have hlast := fits_value hc hk
    have hnot := (goesOn_iff_lt_passes hc.step_ne_zero c.passes).not.2 (Nat.lt_irrefl _)
    rw [hpasses, value_succ] at hfits hnot
    rw [value_succ, Int.bmod_def]
    obtain ⟨-, hstop, hstep, -⟩ := hc
    unfold Fits at *
    unfold GoesOn at *
    split at hgoes <;> rename_i hsign
    · rw [if_pos hsign] at hnot ⊢
      omega
    · rw [if_neg hsign] at hnot ⊢
      omega

end Counting

open Counting

/-! ## What the two instructions do -/

namespace Machine

/-- A variable has a value, and whether the loop goes on stands on top of some operands. -/
structure Turned (r : Reference) (v : Int64) (more : Bool) (eval : List Value) (m : Machine) : Prop where
  operands : m.operands? = some (.bool more :: eval)
  cell : m.peek r = .ok (some (.int v))

variable {m m₁ m' : Machine} {r : Reference} {v : Int64} {more : Bool} {eval : List Value}

theorem Turned.of_stack_eq (h : Turned r v more eval m) (hst : m'.stack = m.stack)
    (hheap : m'.world.heap = m.world.heap) : Turned r v more eval m' :=
  ⟨(operands?_of_stack_eq hst).trans h.operands, (peek_of_stack_eq hst hheap r).trans h.cell⟩

theorem Turned.letGo (h : Turned r v more eval m) (vs : List Value) : Turned r v more eval (m.letGo vs) :=
  h.of_stack_eq (letGo_stack m vs) (by rw [letGo_world])

theorem Turned.after_step (h : Turned r v more eval m₁) (flow : Flow) :
    Turned r v more eval (m₁.flowTo flow).settle :=
  h.of_stack_eq (by rw [settle_stack, flowTo_stack]) (by rw [settle_heap, flowTo_world])

theorem operands?_write (m : Machine) (r : Reference) (v : Value) : (m.write r v).operands? = m.operands? := by
  have hmodify : ∀ (n : Nat) (g : Frame → Frame), (∀ f, (g f).eval = f.eval) →
      (m.modifyFrame n g).operands? = m.operands? := by
    intro n g hg
    unfold modifyFrame
    split
    · rename_i i _
      simp only [operands?, List.head?_eq_getElem?, List.getElem?_modify]
      cases m.stack[0]? with
      | none => rfl
      | some f => by_cases hi : i = 0 <;> simp [hi, hg]
    · rfl
  cases r with
  | element | field => rfl
  | _ => exact hmodify _ _ fun _ => rfl

end Machine

namespace Exec

variable {α : Type} {m m₁ m₂ : Machine} {r : Reference} {v start stop step : Int64} {more : Bool} {eval : List Value}
  {old : Option Value}

/-- A computation succeeds, and ends a turn. -/
def Turns (r : Reference) (v : Int64) (more : Bool) (eval : List Value) (x : Exec Unit) (m : Machine) : Prop :=
  ∃ m', x m = .ok () m' ∧ m'.Turned r v more eval

theorem Turns.after {x : Exec α} {k : α → Exec Unit} {a : α} (hx : x m = .ok a m₁)
    (h : Turns r v more eval (k a) m₁) : Turns r v more eval (x >>= k) m := by
  obtain ⟨m', hk, hturned⟩ := h
  exact ⟨m', bind_ok_iff.2 ⟨a, m₁, hx, hk⟩, hturned⟩

theorem Turns.holding {x : Exec Unit} (h : Turns r v more eval x m) (vs : List Value) :
    Turns r v more eval (holding vs x) m := by
  obtain ⟨m', hx, hturned⟩ := h
  exact ⟨m'.letGo vs, holding_ok_iff.2 ⟨m', hx, rfl⟩, hturned.letGo vs⟩

/-- **The end of a turn**: the variable is stored, and whether the loop goes on is pushed. -/
theorem store_push_turns (h : m.WithOperands eval m₁) (hcell : m.peek r = .ok old) (v : Int64) (more : Bool) :
    Turns r v more eval (do store r (.int v); push (.bool more)) m₁ := by
  have hcell₁ : m₁.peek r = .ok old := (h.peek_eq r).trans hcell
  let m₂ := (m₁.write r (.int v)).letGo old.toList
  have hstore : store r (.int v) m₁ = .ok () m₂ := by rw [store_eq, Machine.store_eq_peek, hcell₁]
  have hoperands : m₂.operands? = some eval := by
    rw [Machine.operands?_of_stack_eq (Machine.letGo_stack _ _), Machine.operands?_write]
    exact h.operands?_eq
  have hpeek : m₂.peek r = .ok (some (.int v)) := by
    rw [Machine.peek_of_stack_eq (Machine.letGo_stack _ _) (by rw [Machine.letGo_world]), Machine.peek_write hcell₁,
      if_pos rfl]
  obtain ⟨m₃, hpush, h₃⟩ := (Machine.WithOperands.of_operands? hoperands).push (.bool more)
  exact .after hstore ⟨m₃, hpush, h₃.operands?_eq, (h₃.peek_eq r).trans hpeek⟩

/-- **The loop starts**: the variable has the start. -/
theorem forInit_turns (h : m.WithOperands (.int step :: .int stop :: .int start :: .ref r :: eval) m₁)
    (hcell : m.peek r = .ok old) : Turns r start (Operators.continuesInt start stop step) eval (forInit .int) m₁ := by
  obtain ⟨n₁, hpop₁, h₁⟩ := h.pop
  obtain ⟨n₂, hpop₂, h₂⟩ := h₁.pop
  obtain ⟨n₃, hpop₃, h₃⟩ := h₂.pop
  obtain ⟨n₄, hpop₄, h₄⟩ := h₃.popAs Value.asReference rfl
  have hmore : check (Operators.continues .int (.int start) (.int stop) (.int step)) n₄ =
      .ok (Operators.continuesInt start stop step) n₄ := rfl
  exact .after hpop₁ <| .holding (.after hpop₂ <| .holding (.after hpop₃ <| .holding (.after hpop₄ <| .holding
    (.after hmore <| store_push_turns h₄ hcell start _) _) _) _) _

/-- **The loop advances**: the variable has what it had and a step, wrapped around. -/
theorem forStep_turns (h : m.WithOperands (.int step :: .int stop :: .ref r :: eval) m₁)
    (hcell : m.peek r = .ok (some (.int v))) :
    Turns r (v + step) (Operators.continuesInt (v + step) stop step) eval (forStep .int) m₁ := by
  obtain ⟨n₁, hpop₁, h₁⟩ := h.pop
  obtain ⟨n₂, hpop₂, h₂⟩ := h₁.pop
  obtain ⟨n₃, hpop₃, h₃⟩ := h₂.popAs Value.asReference rfl
  have hload : load r n₃ = .ok (.int v) n₃ := by rw [load_eq, Machine.load, h₃.peek_eq, hcell]
  have hnext : check (Operators.advance .int (.int v) (.int step)) n₃ = .ok (.int (v + step)) n₃ := rfl
  have hmore : check (Operators.continues .int (.int (v + step)) (.int stop) (.int step)) n₃ =
      .ok (Operators.continuesInt (v + step) stop step) n₃ := rfl
  exact .after hpop₁ <| .holding (.after hpop₂ <| .holding (.after hpop₃ <| .after hload <| .after hnext <|
    .after hmore <| store_push_turns h₃ hcell (v + step) _) _) _

end Exec

namespace Machine

variable {m m₁ m' : Machine} {r : Reference} {v start stop step : Int64} {more : Bool} {eval : List Value} {k : Nat}

/-! ## The turns of a loop -/

/-- **A counted loop under way**: the machine is about to push whether the loop goes on at a turn, on top of some
operands.  The first turn starts the loop, and any other one advances it after a turn that went on; whatever was done in
between has left the variable alone. -/
inductive Turn (r : Reference) (start stop step : Int64) : Nat → Machine → List Value → Prop
  | first {m : Machine} {eval : List Value} {old : Option Value} (hcell : m.peek r = .ok old)
      (h : m.Ready (.forInit .int) (.int step :: .int stop :: .int start :: .ref r :: eval)) :
      Turn r start stop step 0 m eval
  | next {k : Nat} {m m' : Machine} {eval eval' : List Value} (hturn : Turn r start stop step k m eval)
      (hmore : m.step.2.operands? = some (.bool true :: eval)) (hcell : m'.peek r = m.step.2.peek r)
      (h : m'.Ready (.forStep .int) (.int step :: .int stop :: .ref r :: eval')) :
      Turn r start stop step (k + 1) m' eval'

/-- The bounds of a loop. -/
def counting (start stop step : Int64) : Counting := ⟨start.toInt, stop.toInt, step.toInt⟩

theorem bounded_counting (hstep : step ≠ 0) : (counting start stop step).Bounded := by
  have hfits : ∀ n : Int64, Fits n.toInt := fun n => ⟨n.le_toInt, n.toInt_lt⟩
  exact ⟨hfits start, hfits stop, hfits step, fun h => hstep (Int64.toInt_inj.1 h)⟩

theorem continuesInt_iff (v start stop step : Int64) :
    Operators.continuesInt v stop step = true ↔ (counting start stop step).GoesOn v.toInt := by
  have hsign : 0 ≤ step ↔ 0 ≤ step.toInt := Int64.le_iff_toInt_le
  unfold Operators.continuesInt GoesOn counting
  by_cases h : 0 ≤ step
  · rw [if_pos h, if_pos (hsign.1 h), decide_eq_true_iff, Int64.le_iff_toInt_le]
  · rw [if_neg h, if_neg (hsign.not.1 h), decide_eq_true_iff, Int64.le_iff_toInt_le]

/-- **At a turn the variable has the start and as many steps**, wrapped around, and the predicate is pushed that belongs
to its value. -/
theorem Turn.step_turned (h : Turn r start stop step k m eval) : ∃ v : Int64,
    v.toInt = ((counting start stop step).value k).bmod (2 ^ 64) ∧ m.step.1 = none ∧
      Turned r v (Operators.continuesInt v stop step) eval m.step.2 := by
  induction h with
  | @first m eval old hcell h =>
    obtain ⟨m₁, hact, hturned⟩ := Exec.forInit_turns h.withOperands hcell
    rw [h.step_plain rfl hact]
    refine ⟨start, ?_, rfl, hturned.after_step .next⟩
    have hvalue : (counting start stop step).value 0 = start.toInt := by simp [value, counting]
    rw [hvalue, bmod_of_fits ⟨start.le_toInt, start.toInt_lt⟩]
  | @next k m m' eval eval' hturn hmore hcell h ih =>
    obtain ⟨v, hv, -, hturned⟩ := ih
    obtain ⟨m₁, hact, hturned'⟩ := Exec.forStep_turns h.withOperands (hcell.trans hturned.cell)
    rw [h.step_plain rfl hact]
    refine ⟨v + step, ?_, rfl, hturned'.after_step .next⟩
    rw [value_succ, Int64.toInt_add, hv, Int.bmod_add_bmod]
    rfl

/-- **Counted loops.**  Let `N` be the number of passes in integers of any size.  The first `N` predicates are true, and
the variable has the start and as many steps at each.  The next one is false, with the variable at the start and `N`
steps, if and only if that fits in 64 bits; otherwise the variable wraps around and the loop goes on. -/
theorem counted_loop (hstep : step ≠ 0) (h : Turn r start stop step k m eval) :
    let c := counting start stop step
    ∃ v more, m.step.1 = none ∧ Turned r v more eval m.step.2 ∧
      (k < c.passes → more = true ∧ v.toInt = start.toInt + k * step.toInt) ∧
      (k = c.passes →
        (more = false ∧ v.toInt = start.toInt + c.passes * step.toInt ↔
          Fits (start.toInt + c.passes * step.toInt)) ∧
        (¬ Fits (start.toInt + c.passes * step.toInt) →
          more = true ∧ v.toInt = (start.toInt + c.passes * step.toInt).bmod (2 ^ 64))) := by
  intro c
  have hc : c.Bounded := bounded_counting hstep
  have hpasses : ∀ k, c.GoesOn (c.value k) ↔ k < c.passes := goesOn_iff_lt_passes hc.step_ne_zero
  obtain ⟨v, hv, hnone, hturned⟩ := h.step_turned
  have hmore : Operators.continuesInt v stop step = true ↔ c.GoesOn v.toInt := continuesInt_iff v start stop step
  refine ⟨v, _, hnone, hturned, fun hk => ?_, ?_⟩
  · have hexact : v.toInt = c.value k := hv.trans (bmod_of_fits (fits_value hc hk))
    exact ⟨hmore.2 (by rw [hexact]; exact (hpasses k).2 hk), hexact⟩
  · rintro rfl
    have hwraps : ¬ Fits (c.value c.passes) → Operators.continuesInt v stop step = true := fun hfits =>
      hmore.2 (by rw [hv]; exact goesOn_wrapped hc hfits)
    refine ⟨⟨fun ⟨hfalse, _⟩ => ?_, fun hfits => ?_⟩, fun hfits => ⟨hwraps hfits, hv⟩⟩
    · refine Classical.byContradiction fun hfits => ?_
      rw [hwraps hfits] at hfalse
      cases hfalse
    · have hexact : v.toInt = c.value c.passes := hv.trans (bmod_of_fits hfits)
      refine ⟨?_, hexact⟩
      rw [Bool.eq_false_iff, ne_eq, hmore, hexact, hpasses]
      exact Nat.lt_irrefl _

/-- A program that counts in its global. -/
def countingProgram (start stop step : Int64) : Image where
  code := #[⟨⟨1, 1⟩, .globalRef 0⟩, ⟨⟨1, 5⟩, .litInt start⟩, ⟨⟨1, 6⟩, .litInt stop⟩, ⟨⟨1, 7⟩, .litInt step⟩,
    ⟨⟨1, 1⟩, .forInit .int⟩, ⟨⟨1, 1⟩, .jumpFalse 1⟩, ⟨⟨2, 1⟩, .globalRef 0⟩, ⟨⟨2, 1⟩, .litInt stop⟩,
    ⟨⟨2, 1⟩, .litInt step⟩, ⟨⟨2, 1⟩, .forStep .int⟩, ⟨⟨2, 1⟩, .jumpTrue 0⟩, ⟨⟨3, 1⟩, .finish⟩]
  labels := #[⟨"advance", 6⟩, ⟨"done", 11⟩]
  strings := #[]
  classes := #[]
  scopes := #[.global ["i"]]
  globalScope := 0

/-- That program about to start, with nothing to read. -/
def countingStart (start stop step : Int64) : Machine :=
  ⟨countingProgram start stop step, {}, 0, [.fresh 0 0 0 [] 1], 0, none, [], [],
    { console := ⟨.script [], [], ""⟩, random := .ofSeed 0 }⟩

/-- From 4 down to 2 by 3 there is one pass, and the variable ends at 1.  From the largest integer to itself there is one
too, and then the variable is the least one and the loop goes on. -/
theorem counted_loop_ends_wraps :
    Turned (.global 0) 1 false [] ((countingStart 4 2 (-3)).stepped 10) ∧
    Turned (.global 0) Int64.minValue true [] ((countingStart Int64.maxValue Int64.maxValue 1).stepped 10) := by
  constructor
  · have hfirst : Turn (.global 0) 4 2 (-3) 0 ((countingStart 4 2 (-3)).stepped 4) [] :=
      .first rfl ⟨rfl, rfl, by decide⟩
    have hnext : Turn (.global 0) 4 2 (-3) 1 ((countingStart 4 2 (-3)).stepped 9) [] :=
      .next hfirst rfl rfl ⟨rfl, rfl, by decide⟩
    obtain ⟨v, more, -, hturned, -, hlast⟩ := counted_loop (by decide) hnext
    obtain ⟨rfl, hv⟩ := (hlast (by decide)).1.2 (by unfold Fits; decide)
    obtain rfl : v = 1 := Int64.toInt_inj.1 (hv.trans (by decide))
    exact hturned
  · have hfirst : Turn (.global 0) Int64.maxValue Int64.maxValue 1 0
        ((countingStart Int64.maxValue Int64.maxValue 1).stepped 4) [] :=
      .first rfl ⟨rfl, rfl, by decide⟩
    have hnext : Turn (.global 0) Int64.maxValue Int64.maxValue 1 1
        ((countingStart Int64.maxValue Int64.maxValue 1).stepped 9) [] :=
      .next hfirst rfl rfl ⟨rfl, rfl, by decide⟩
    obtain ⟨v, more, -, hturned, -, hlast⟩ := counted_loop (by decide) hnext
    obtain ⟨rfl, hv⟩ := (hlast (by decide)).2 (by unfold Fits; decide)
    obtain rfl : v = Int64.minValue := Int64.toInt_inj.1 (hv.trans (by decide))
    exact hturned

end Machine

end PseudoVm
