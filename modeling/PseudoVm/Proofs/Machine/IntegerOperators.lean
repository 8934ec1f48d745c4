import Mathlib.Data.Int.ModEq
import PseudoVm.Proofs.Machine.Operands
/-!
# Machine.IntegerOperators: arithmetic at 64 bits

What an integer operator is to answer is said in integers of any size (`Operators.IntAnswer`): sums, differences,
products and powers are right up to a multiple of 2^64, division truncates towards zero and leaves a remainder of the
sign of the dividend, and comparisons are those of the integers.  The operators answer that (`Operators.ints_answers`),
and an instruction that is handed two integers pushes it, or fails with the fault that it is
(`Machine.integer_operators`).
-/
namespace PseudoVm

/-! ## Arithmetic that wraps around -/

theorem toInt_add_modEq (a b : Int64) : (a + b).toInt ≡ a.toInt + b.toInt [ZMOD 2 ^ 64] := by
  rw [Int64.toInt_add]
  exact Int.bmod_emod

theorem toInt_sub_modEq (a b : Int64) : (a - b).toInt ≡ a.toInt - b.toInt [ZMOD 2 ^ 64] := by
  rw [Int64.toInt_sub]
  exact Int.bmod_emod

theorem toInt_mul_modEq (a b : Int64) : (a * b).toInt ≡ a.toInt * b.toInt [ZMOD 2 ^ 64] := by
  rw [Int64.toInt_mul]
  exact Int.bmod_emod

/-- **Every turn of the squaring loop keeps the product of the result and the power that is left**, modulo 2^64. -/
theorem Power.squaring_modEq (result base : Int64) (exponent : Nat) :
    (squaring result base exponent).toInt ≡ result.toInt * base.toInt ^ exponent [ZMOD 2 ^ 64] := by
  fun_induction squaring result base exponent with
  | case1 result base => rw [pow_zero, mul_one]
  | case2 result base exponent hne result' ih =>
    have hsquare : (base * base).toInt ^ (exponent / 2) ≡ base.toInt ^ (2 * (exponent / 2)) [ZMOD 2 ^ 64] := by
      rw [pow_mul, pow_two]
      exact (toInt_mul_modEq base base).pow _
    refine ih.trans ((hsquare.mul_left _).trans ?_)
    by_cases hodd : exponent % 2 = 1
    · have hexp : exponent = 1 + 2 * (exponent / 2) := by omega
      have hresult : result'.toInt ≡ result.toInt * base.toInt [ZMOD 2 ^ 64] := by
        simp only [result', dif_pos hodd]
        exact toInt_mul_modEq result base
      calc result'.toInt * base.toInt ^ (2 * (exponent / 2))
          ≡ result.toInt * base.toInt * base.toInt ^ (2 * (exponent / 2)) [ZMOD 2 ^ 64] := hresult.mul_right _
        _ = result.toInt * base.toInt ^ (1 + 2 * (exponent / 2)) := by rw [pow_add, pow_one, mul_assoc]
        _ = result.toInt * base.toInt ^ exponent := by rw [← hexp]
    · have hexp : exponent = 2 * (exponent / 2) := by omega
      simp only [result', dif_neg hodd]
      rw [← hexp]

theorem intPower_modEq {a b : Int64} (hb : 0 ≤ b.toInt) :
    (intPower a b).toInt ≡ a.toInt ^ b.toInt.toNat [ZMOD 2 ^ 64] := by
  have hpos : ¬ b < 0 := by
    rw [Int64.lt_iff_toInt_lt]
    exact not_lt.2 hb
  rw [intPower, if_neg hpos]
  have h := Power.squaring_modEq 1 a b.toInt.toNat
  rwa [Int64.toInt_one, one_mul] at h

namespace Operators

/-- The remainder of a division that truncates towards zero: smaller than the divisor, and of the sign of the dividend
unless it is zero. -/
structure Remainder (a b q r : Int) : Prop where
  split : a = q * b + r
  small : r.natAbs < b.natAbs
  sign : r = 0 ∨ r.sign = a.sign

/-- **What an integer operator is to answer**, said in integers of any size. -/
def IntAnswer (a b : Int64) (answer : Except Fault Value) : BinaryOp → Prop
  | .add => ∃ c : Int64, answer = .ok (.int c) ∧ c.toInt ≡ a.toInt + b.toInt [ZMOD 2 ^ 64]
  | .sub => ∃ c : Int64, answer = .ok (.int c) ∧ c.toInt ≡ a.toInt - b.toInt [ZMOD 2 ^ 64]
  | .mul => ∃ c : Int64, answer = .ok (.int c) ∧ c.toInt ≡ a.toInt * b.toInt [ZMOD 2 ^ 64]
  | .exp => ∃ c : Int64, answer = .ok (.int c) ∧
      (0 ≤ b.toInt → c.toInt ≡ a.toInt ^ b.toInt.toNat [ZMOD 2 ^ 64]) ∧ (b.toInt < 0 → c.toInt = 0)
  | .div => (b.toInt = 0 → answer = .error .divideByZero) ∧
      (b.toInt ≠ 0 → ∃ c : Int64, answer = .ok (.int c) ∧
        if a.toInt = -2 ^ 63 ∧ b.toInt = -1 then c.toInt = -2 ^ 63 else c.toInt = a.toInt.tdiv b.toInt)
  | .mod => (b.toInt = 0 → answer = .error .divideByZero) ∧
      (b.toInt ≠ 0 → ∃ c : Int64, answer = .ok (.int c) ∧
        if a.toInt = -2 ^ 63 ∧ b.toInt = -1 then c.toInt = 0
        else Remainder a.toInt b.toInt (a.toInt.tdiv b.toInt) c.toInt)
  | .eq => answer = .ok (.bool (decide (a.toInt = b.toInt)))
  | .neq => answer = .ok (.bool (decide (a.toInt ≠ b.toInt)))
  | .lt => answer = .ok (.bool (decide (a.toInt < b.toInt)))
  | .lte => answer = .ok (.bool (decide (a.toInt ≤ b.toInt)))
  | .gt => answer = .ok (.bool (decide (a.toInt > b.toInt)))
  | .gte => answer = .ok (.bool (decide (a.toInt ≥ b.toInt)))
  | .and => answer = .error (.badInstruction (.binaryUndefined BinaryOp.and.name "int"))
  | .or => answer = .error (.badInstruction (.binaryUndefined BinaryOp.or.name "int"))

theorem remainder_tmod {a b : Int} (hb : b ≠ 0) : Remainder a b (a.tdiv b) (a.tmod b) := by
  refine ⟨(Int.tdiv_mul_add_tmod a b).symm, ?_, ?_⟩
  · rw [Int.natAbs_tmod]
    exact Nat.mod_lt _ (Int.natAbs_pos.2 hb)
  · rw [Int.sign_tmod]
    by_cases hdvd : b ∣ a
    · exact .inl (Int.tmod_eq_zero_of_dvd hdvd)
    · exact .inr (if_neg hdvd)

theorem intOrder_eq_compare (a b : Int64) : intOrder a b = compare a.toInt b.toInt := by
  unfold intOrder
  simp only [Int64.lt_iff_toInt_lt, ← Int64.toInt_inj]
  rfl

theorem toInt_div_eq (a b : Int64) :
    if a.toInt = -2 ^ 63 ∧ b.toInt = -1 then (a / b).toInt = -2 ^ 63 else (a / b).toInt = a.toInt.tdiv b.toInt := by
  split
  · rename_i h
    rw [Int64.toInt_div, h.1, h.2]
    rfl
  · rename_i h
    by_cases ha : a = Int64.minValue
    · refine Int64.toInt_div_of_ne_right a b fun hb => h ⟨?_, ?_⟩
      · rw [ha, Int64.toInt_minValue]
      · rw [hb]
        rfl
    · exact Int64.toInt_div_of_ne_left a b ha

/-- **The integer operators answer what they are to answer.** -/
theorem ints_answers (op : BinaryOp) (a b : Int64) : IntAnswer a b (ints op a b) op := by
  have hzero : b = 0 ↔ b.toInt = 0 := Int64.toInt_inj.symm
  have hcompared : ∀ holds : Ordering → Bool, holds? op = some holds →
      compared op (intOrder a b) "int" = .ok (.bool (holds (compare a.toInt b.toInt))) := by
    intro holds h
    rw [compared, h, intOrder_eq_compare]
  cases op with
  | add => exact ⟨a + b, rfl, toInt_add_modEq a b⟩
  | sub => exact ⟨a - b, rfl, toInt_sub_modEq a b⟩
  | mul => exact ⟨a * b, rfl, toInt_mul_modEq a b⟩
  | exp =>
    refine ⟨intPower a b, rfl, intPower_modEq, fun hb => ?_⟩
    rw [intPower, if_pos (Int64.lt_iff_toInt_lt.2 hb)]
    rfl
  | div =>
    refine ⟨fun hb => if_pos (hzero.2 hb), fun hb => ⟨a / b, if_neg (hzero.not.2 hb), toInt_div_eq a b⟩⟩
  | mod =>
    refine ⟨fun hb => if_pos (hzero.2 hb), fun hb => ⟨a % b, if_neg (hzero.not.2 hb), ?_⟩⟩
    rw [Int64.toInt_mod]
    split
    · rename_i h
      rw [h.1, h.2]
      rfl
    · exact remainder_tmod hb
  | eq | neq | lt | lte | gt | gte =>
    refine (hcompared _ rfl).trans (congrArg (fun p => Except.ok (Value.bool p)) ?_)
    rcases lt_trichotomy a.toInt b.toInt with h | h | h
    · simp [compare_lt_iff_lt.2 h, h, h.le, h.ne, h.not_gt, h.not_ge]
    · simp [h]
    · simp [compare_gt_iff_gt.2 h, h, h.le, h.ne', h.not_gt, h.not_ge]
  | and | or => rfl

end Operators

namespace Machine

/-- **Integer operators are exact modulo 2^64.**  An instruction that is handed two integers answers as it is to, and
never stops for another reason: it leaves the answer in the place of the two, or fails with it if it is a fault. -/
theorem integer_operators {m : Machine} {op : BinaryOp} {a b : Int64} {eval : List Value}
    (h : m.Ready (.binInt op) (.int b :: .int a :: eval)) :
    ∃ answer, Operators.IntAnswer a b answer op ∧
      (∀ v, answer = .ok v → m.step.1 = none ∧ m.WithOperands (v :: eval) m.step.2) ∧
      (∀ e, answer = .error e → m.step.1 = some (.fault e)) := by
  obtain ⟨hok, herror⟩ := Exec.binary_withOperands Value.asInt (Operators.ints op) h.withOperands rfl rfl
  refine ⟨Operators.ints op a b, Operators.ints_answers op a b, fun v hv => ?_, fun e he => ?_⟩
  · obtain ⟨m₁, hact, h₁⟩ := hok v hv
    rw [h.step_plain rfl hact]
    exact ⟨rfl, (h₁.flowTo .next).settle⟩
  · obtain ⟨m₁, hact⟩ := herror e he
    rw [h.step_plain_error rfl hact]

/-- A program that raises 3 to the power of 100. -/
def power : Image where
  code := #[⟨⟨1, 1⟩, .litInt 3⟩, ⟨⟨1, 3⟩, .litInt 100⟩, ⟨⟨1, 2⟩, .binInt .exp⟩, ⟨⟨1, 1⟩, .halt 1⟩]
  labels := #[]
  strings := #[]
  classes := #[]
  scopes := #[.global []]
  globalScope := 0

/-- That program about to start, with nothing to read. -/
def powerStart : Machine :=
  ⟨power, {}, 0, [.fresh 0 0 0 [] 0], 0, none, [], [], { console := ⟨.script [], [], ""⟩, random := .ofSeed 0 }⟩

/-- The power is far too large for 64 bits, and is right modulo 2^64. -/
theorem integer_operators_power :
    ∃ c : Int64, (powerStart.stepped 2).step.2.operands? = some [.int c] ∧ c.toInt ≡ 3 ^ 100 [ZMOD 2 ^ 64] := by
  have hready : (powerStart.stepped 2).Ready (.binInt .exp) [.int 100, .int 3] := ⟨rfl, rfl, by decide⟩
  obtain ⟨answer, ⟨c, rfl, hc, -⟩, hok, -⟩ := integer_operators hready
  obtain ⟨-, hoperands⟩ := hok _ rfl
  exact ⟨c, hoperands.operands?_eq, hc (by decide)⟩

end Machine

end PseudoVm
