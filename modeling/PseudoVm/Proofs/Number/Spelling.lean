import Mathlib.Data.List.Induction
import Mathlib.Tactic.IntervalCases
import PseudoVm.Number.Numeral
/-!
# Number.Spelling: what digits spell

A digit stands for a number below the radix (`DigitOf`), and digits spell a number, the last of them counting ones
(`Spells`).  Reading follows the digits from the left and gives up at the first value out of range; since every further
digit makes the value larger, it accepts exactly the spellings of the numbers in range (`readNat_eq_ok_iff`,
`readInt_eq_ok_iff`).  What is printed for a number is one of its spellings (`spells_toDigits`, `spellsInt_intText`).
-/
namespace PseudoVm

theorem Except.toOption_eq_some_iff {ε α : Type} {x : Except ε α} {a : α} : x.toOption = some a ↔ x = .ok a := by
  cases x <;> simp [Except.toOption]

namespace Numeral

/-- A character that stands for a number below the radix.  Letters of either case go on where the figures end. -/
def DigitOf (radix : Nat) (c : Char) (d : Nat) : Prop := d < radix ∧ (c = d.digitChar ∨ c = d.digitChar.toUpper)

/-- Digits and the number that they spell. -/
inductive Spells (radix : Nat) : List Char → Nat → Prop
  | nil : Spells radix [] 0
  | snoc {cs : List Char} {n : Nat} {c : Char} {d : Nat} (hn : Spells radix cs n) (hd : DigitOf radix c d) :
      Spells radix (cs ++ [c]) (n * radix + d)

/-- One or more digits, perhaps behind a plus sign. -/
inductive SpellsNat (radix : Nat) : List Char → Nat → Prop
  | plain {cs : List Char} {n : Nat} (hne : cs ≠ []) (hn : Spells radix cs n) : SpellsNat radix cs n
  | plus {cs : List Char} {n : Nat} (hne : cs ≠ []) (hn : Spells radix cs n) : SpellsNat radix ('+' :: cs) n

/-- One or more decimal digits, perhaps behind one sign. -/
inductive SpellsInt : List Char → Int → Prop
  | plain {cs : List Char} {n : Nat} (hne : cs ≠ []) (hn : Spells 10 cs n) : SpellsInt cs n
  | plus {cs : List Char} {n : Nat} (hne : cs ≠ []) (hn : Spells 10 cs n) : SpellsInt ('+' :: cs) n
  | minus {cs : List Char} {n : Nat} (hne : cs ≠ []) (hn : Spells 10 cs n) : SpellsInt ('-' :: cs) (-n)

/-! ## Digits -/

theorem digit?_digitChar : ∀ d < 16,
    digit? 16 d.digitChar = some d ∧ digit? 16 d.digitChar.toUpper = some d := by decide

theorem digit?_eq_filter {radix : Nat} (h : radix ≤ 16) (c : Char) :
    digit? radix c = (digit? 16 c).filter (· < radix) := by
  simp only [digit?, Option.filter_filter]
  congr 1
  funext d
  have : d < radix → d < 16 := fun hd => Nat.lt_of_lt_of_le hd h
  simpa using this

theorem digitOf_of_digit? {c : Char} {d : Nat} (h : digit? 16 c = some d) : DigitOf 16 c d := by
  have hle : ∀ a b : Char, a ≤ b ↔ a.toNat ≤ b.toNat := fun a b => UInt32.le_iff_toNat_le
  have hchar : ∀ b : Char, c.toNat = b.toNat → c = b := fun b => Char.toNat_inj.1
  simp only [digit?, Option.filter_eq_some_iff, decide_eq_true_eq, hle] at h
  obtain ⟨hv, hd⟩ := h
  refine ⟨hd, ?_⟩
  -- figures, small letters and capitals: in each range the character is known from its number
  split at hv
  · next hc =>
    have hfig : '0'.toNat = 48 ∧ '9'.toNat = 57 := ⟨rfl, rfl⟩
    have hd' := Option.some_inj.1 hv
    have hcn : c.toNat = d + 48 := by omega
    have hd10 : d < 10 := by omega
    left
    apply hchar
    rw [hcn, Nat.toNat_digitChar_of_lt_ten hd10, Nat.add_comm]
  split at hv
  · next hc =>
    have hlow : 'a'.toNat = 97 := rfl
    have hcn : c.toNat = d + 87 := by have := Option.some_inj.1 hv; omega
    have hd10 : 10 ≤ d := by omega
    left
    apply hchar
    rw [hcn]
    interval_cases d <;> rfl
  split at hv
  · next hc =>
    have hup : 'A'.toNat = 65 := rfl
    have hcn : c.toNat = d + 55 := by have := Option.some_inj.1 hv; omega
    have hd10 : 10 ≤ d := by omega
    right
    apply hchar
    rw [hcn]
    interval_cases d <;> rfl
  · cases hv

theorem digit?_eq_some_iff {radix : Nat} (h : radix ≤ 16) {c : Char} {d : Nat} :
    digit? radix c = some d ↔ DigitOf radix c d := by
  rw [digit?_eq_filter h, Option.filter_eq_some_iff, decide_eq_true_eq]
  constructor
  · rintro ⟨hd, hlt⟩
    exact ⟨hlt, (digitOf_of_digit? hd).2⟩
  · rintro ⟨hlt, hc⟩
    obtain ⟨hlower, hupper⟩ := digit?_digitChar d (Nat.lt_of_lt_of_le hlt h)
    exact ⟨by rcases hc with rfl | rfl <;> assumption, hlt⟩

/-! ## Spellings -/

theorem spells_nil_iff {radix n : Nat} : Spells radix [] n ↔ n = 0 := by
  constructor
  · intro h
    generalize hcs : ([] : List Char) = cs at h
    cases h with
    | nil => rfl
    | snoc => simp at hcs
  · rintro rfl
    exact .nil

theorem spells_concat_iff {radix : Nat} {cs : List Char} {c : Char} {n : Nat} :
    Spells radix (cs ++ [c]) n ↔ ∃ m d, Spells radix cs m ∧ DigitOf radix c d ∧ m * radix + d = n := by
  constructor
  · intro h
    generalize hcs : cs ++ [c] = ds at h
    cases h with
    | nil => simp at hcs
    | snoc hn hd =>
      obtain ⟨rfl, hc⟩ := List.append_inj' hcs rfl
      cases hc
      exact ⟨_, _, hn, hd, rfl⟩
  · rintro ⟨m, d, hn, hd, rfl⟩
    exact .snoc hn hd

theorem Spells.digitOf {radix : Nat} {cs : List Char} {n : Nat} (h : Spells radix cs n) :
    ∀ c ∈ cs, ∃ d, DigitOf radix c d := by
  induction h with
  | nil => exact fun c hc => absurd hc List.not_mem_nil
  | snoc _ hd ih =>
    intro c hc
    rcases List.mem_append.1 hc with hc | hc
    · exact ih c hc
    · cases List.mem_singleton.1 hc
      exact ⟨_, hd⟩

theorem Spells.zeros {radix : Nat} (hpos : 0 < radix) {cs : List Char} {n : Nat} (h : Spells radix cs n) (k : Nat) :
    Spells radix (List.replicate k '0' ++ cs) n := by
  induction h with
  | nil =>
    induction k with
    | zero => exact .nil
    | succ k ih =>
      have hzero : DigitOf radix '0' 0 := ⟨hpos, .inl rfl⟩
      simpa [List.replicate_succ'] using Spells.snoc ih hzero
  | snoc _ hd ih =>
    rw [← List.append_assoc]
    exact .snoc ih hd

theorem spells_toDigits {radix : Nat} (h : 1 < radix) {f : Char → Char}
    (hf : ∀ d < radix, DigitOf radix (f d.digitChar) d) (n : Nat) :
    Spells radix ((Nat.toDigits radix n).map f) n := by
  induction n using Nat.strongRecOn with
  | ind n ih =>
    rw [Nat.toDigits_eq_if h]
    split
    · next hlt => simpa using Spells.snoc .nil (hf n hlt)
    · next hle =>
      have hsmaller : n / radix < n := Nat.div_lt_self (by omega) h
      have hsum : n / radix * radix + n % radix = n := Nat.div_add_mod' n radix
      have hsnoc := Spells.snoc (ih _ hsmaller) (hf _ (Nat.mod_lt n (by omega)))
      rw [hsum] at hsnoc
      rw [List.map_append, List.map_singleton]
      exact hsnoc

theorem digitOf_ten_iff {c : Char} {d : Nat} : DigitOf 10 c d ↔ c.isDigit ∧ c.toNat - 48 = d := by
  have hdigit : c.isDigit ↔ 48 ≤ c.toNat ∧ c.toNat ≤ 57 := by simp [Char.isDigit, UInt32.le_iff_toNat_le]
  rw [hdigit]
  constructor
  · rintro ⟨hd, rfl | rfl⟩
    · have hn := Nat.toNat_digitChar_of_lt_ten hd
      omega
    · have hn : d.digitChar.toUpper.toNat = 48 + d := by interval_cases d <;> rfl
      omega
  · rintro ⟨hc, rfl⟩
    have hd : c.toNat - 48 < 10 := by omega
    refine ⟨hd, .inl (Char.toNat_inj.1 ?_)⟩
    rw [Nat.toNat_digitChar_of_lt_ten hd]
    omega

theorem spells_ten_iff {cs : List Char} {n : Nat} :
    Spells 10 cs n ↔ (∀ c ∈ cs, c.isDigit) ∧ Nat.ofDigitChars 10 cs 0 = n := by
  induction cs using List.reverseRecOn generalizing n with
  | nil =>
    rw [spells_nil_iff]
    exact ⟨fun hn => ⟨fun c hc => absurd hc List.not_mem_nil, hn.symm⟩, fun h => h.2.symm⟩
  | append_singleton cs c ih =>
    have hvalue : Nat.ofDigitChars 10 (cs ++ [c]) 0 = Nat.ofDigitChars 10 cs 0 * 10 + (c.toNat - 48) := by
      rw [Nat.ofDigitChars_append, Nat.ofDigitChars_cons, Nat.ofDigitChars_nil, Nat.mul_comm]
      rfl
    simp only [spells_concat_iff, ih, digitOf_ten_iff, hvalue, List.forall_mem_append, List.forall_mem_singleton]
    constructor
    · rintro ⟨m, d, ⟨hcs, rfl⟩, ⟨hc, rfl⟩, rfl⟩
      exact ⟨⟨hcs, hc⟩, rfl⟩
    · rintro ⟨⟨hcs, hc⟩, rfl⟩
      exact ⟨_, _, ⟨hcs, rfl⟩, ⟨hc, rfl⟩, rfl⟩

/-! ## Reading -/

theorem extend_append {radix bound : Nat} {overflow : NumeralError} (ds : List Char) :
    ∀ (cs : List Char) (value : Nat), extend radix bound overflow value (cs ++ ds) =
      (extend radix bound overflow value cs).bind fun n => extend radix bound overflow n ds
  | [], _ => rfl
  | c :: cs, value => by
    rw [List.cons_append, extend, extend]
    cases digit? radix c with
    | none => rfl
    | some d =>
      dsimp only
      split
      · exact extend_append ds cs _
      · rfl

variable {radix bound n : Nat} {overflow : NumeralError} {cs : List Char}

theorem extend_singleton_eq_ok_iff (hr : radix ≤ 16) {value : Nat} {c : Char} :
    extend radix bound overflow value [c] = .ok n ↔
      ∃ d, DigitOf radix c d ∧ value * radix + d = n ∧ n ≤ bound := by
  simp only [← digit?_eq_some_iff hr, extend]
  cases digit? radix c with
  | none => simp
  | some d =>
    dsimp only
    split
    · next hle =>
      constructor
      · rintro ⟨⟩
        exact ⟨d, rfl, rfl, hle⟩
      · rintro ⟨_, ⟨⟩, rfl, -⟩
        rfl
    · next hgt =>
      constructor
      · rintro ⟨⟩
      · rintro ⟨_, ⟨⟩, rfl, hle⟩
        exact absurd hle hgt

theorem extend_eq_ok_iff (hpos : 0 < radix) (hr : radix ≤ 16) :
    extend radix bound overflow 0 cs = .ok n ↔ Spells radix cs n ∧ n ≤ bound := by
  induction cs using List.reverseRecOn generalizing n with
  | nil =>
    rw [spells_nil_iff]
    constructor
    · rintro ⟨⟩
      exact ⟨rfl, Nat.zero_le bound⟩
    · rintro ⟨rfl, -⟩
      rfl
  | append_singleton cs c ih =>
    rw [extend_append, spells_concat_iff]
    constructor
    · intro h
      cases hm : extend radix bound overflow 0 cs with
      | error e =>
        rw [hm] at h
        cases h
      | ok m =>
        rw [hm] at h
        obtain ⟨d, hd, hn, hle⟩ := (extend_singleton_eq_ok_iff hr).1 h
        exact ⟨⟨m, d, (ih.1 hm).1, hd, hn⟩, hle⟩
    · rintro ⟨⟨m, d, hm, hd, rfl⟩, hle⟩
      have hmd : m ≤ m * radix + d := Nat.le_trans (Nat.le_mul_of_pos_right m hpos) (Nat.le_add_right _ d)
      rw [ih.2 ⟨hm, Nat.le_trans hmd hle⟩]
      exact (extend_singleton_eq_ok_iff hr).2 ⟨d, hd, rfl, hle⟩

theorem magnitude_eq_ok_iff (hpos : 0 < radix) (hr : radix ≤ 16) :
    magnitude radix bound overflow cs = .ok n ↔ cs ≠ [] ∧ Spells radix cs n ∧ n ≤ bound := by
  cases cs with
  | nil => simp [magnitude]
  | cons c cs =>
    rw [magnitude, extend_eq_ok_iff hpos hr]
    · simp
    · exact List.cons_ne_nil c cs

theorem Spells.ne_cons {c : Char} (hc : ∀ d, ¬ DigitOf radix c d) (h : Spells radix cs n) (ds : List Char) :
    cs ≠ c :: ds := by
  rintro rfl
  obtain ⟨d, hd⟩ := h.digitOf c List.mem_cons_self
  exact hc d hd

theorem not_digitOf {c : Char} (hr : radix ≤ 16) (hc : digit? 16 c = none) (d : Nat) : ¬ DigitOf radix c d := by
  rw [← digit?_eq_some_iff hr, digit?_eq_filter hr, hc]
  exact Option.some_ne_none d ∘ Eq.symm

/-- **A number is read from its spellings and from nothing else.** -/
theorem readNat_eq_ok_iff (hpos : 0 < radix) (hr : radix ≤ 16) :
    readNat radix bound cs = .ok n ↔ SpellsNat radix cs n ∧ n ≤ bound := by
  have hplus : ∀ d, ¬ DigitOf radix '+' d := not_digitOf hr (by decide)
  unfold readNat
  split
  · constructor
    · rintro ⟨⟩
    · rintro ⟨h, -⟩
      cases h with
      | plain hne => exact absurd rfl hne
  · next digits =>
    rw [magnitude_eq_ok_iff hpos hr]
    constructor
    · rintro ⟨hne, hn, hle⟩
      exact ⟨.plus hne hn, hle⟩
    · rintro ⟨h, hle⟩
      cases h with
      | plain hne hn => exact absurd rfl (hn.ne_cons hplus digits)
      | plus hne hn => exact ⟨hne, hn, hle⟩
  · next hsign =>
    rw [magnitude_eq_ok_iff hpos hr]
    constructor
    · rintro ⟨hne, hn, hle⟩
      exact ⟨.plain hne hn, hle⟩
    · rintro ⟨h, hle⟩
      cases h with
      | plain hne hn => exact ⟨hne, hn, hle⟩
      | plus => exact absurd rfl (hsign _)

theorem SpellsNat.unique (hpos : 0 < radix) (hr : radix ≤ 16) {m : Nat} (hn : SpellsNat radix cs n)
    (hm : SpellsNat radix cs m) : n = m := by
  have hread : ∀ {k}, SpellsNat radix cs k → k ≤ max n m → readNat radix (max n m) cs = .ok k :=
    fun hk hle => (readNat_eq_ok_iff hpos hr).2 ⟨hk, hle⟩
  exact Except.ok.inj ((hread hn (Nat.le_max_left n m)).symm.trans (hread hm (Nat.le_max_right n m)))

theorem map_magnitude_eq_ok_iff {f : Int → Int} (hf : ∀ m : Nat, m ≤ bound → -2 ^ 63 ≤ f m ∧ f m < 2 ^ 63)
    {k : Int64} :
    Except.map (fun m => Int64.ofInt (f m)) (do let m ← magnitude 10 bound overflow cs; pure (m : Int)) = .ok k ↔
      ∃ m : Nat, cs ≠ [] ∧ Spells 10 cs m ∧ m ≤ bound ∧ k.toInt = f m := by
  have hread : ∀ {m}, magnitude 10 bound overflow cs = .ok m ↔ cs ≠ [] ∧ Spells 10 cs m ∧ m ≤ bound :=
    magnitude_eq_ok_iff (by decide) (by decide)
  have hback : ∀ {m : Nat}, m ≤ bound → (Int64.ofInt (f m)).toInt = f m := fun hm =>
    Int64.toInt_ofInt_of_le (hf _ hm).1 (hf _ hm).2
  constructor
  · intro h
    cases hm : magnitude 10 bound overflow cs with
    | error e =>
      rw [hm] at h
      cases h
    | ok m =>
      rw [hm] at h
      cases h
      obtain ⟨hne, hn, hle⟩ := hread.1 hm
      exact ⟨m, hne, hn, hle, hback hle⟩
  · rintro ⟨m, hne, hn, hle, hk⟩
    rw [hread.2 ⟨hne, hn, hle⟩]
    exact congrArg Except.ok (Int64.toInt_inj.1 ((hback hle).trans hk.symm))

/-- **An integer is read from its spellings and from nothing else.** -/
theorem readInt_eq_ok_iff {k : Int64} : readInt cs = .ok k ↔ SpellsInt cs k.toInt := by
  have hlow : -2 ^ 63 ≤ k.toInt := Int64.le_toInt k
  have hhigh : k.toInt < 2 ^ 63 := Int64.toInt_lt k
  have hplus : ∀ d, ¬ DigitOf 10 '+' d := not_digitOf (by decide) (by decide)
  have hminus : ∀ d, ¬ DigitOf 10 '-' d := not_digitOf (by decide) (by decide)
  -- the least integer has no counterpart, so the magnitude's bound goes with the sign
  have hnonneg : ∀ m : Nat, m ≤ Bound.int - 1 → -2 ^ 63 ≤ (m : Int) ∧ (m : Int) < 2 ^ 63 := fun m hm => by
    simp only [Bound.int] at hm
    omega
  have hneg : ∀ m : Nat, m ≤ Bound.int → -2 ^ 63 ≤ -(m : Int) ∧ -(m : Int) < 2 ^ 63 := fun m hm => by
    simp only [Bound.int] at hm
    omega
  unfold readInt
  split
  · constructor
    · rintro ⟨⟩
    · intro h
      generalize k.toInt = v at h
      cases h with
      | plain hne => exact absurd rfl hne
  · next digits =>
    refine (map_magnitude_eq_ok_iff (f := id) hnonneg).trans ?_
    constructor
    · rintro ⟨m, hne, hn, -, hk⟩
      exact hk ▸ .plus hne hn
    · intro h
      generalize hv : k.toInt = v at h
      cases h with
      | plain hne hn => exact absurd rfl (hn.ne_cons hplus digits)
      | plus hne hn => exact ⟨_, hne, hn, by simp only [Bound.int]; omega, rfl⟩
  · next digits =>
    refine (map_magnitude_eq_ok_iff (f := (-·)) hneg).trans ?_
    constructor
    · rintro ⟨m, hne, hn, -, hk⟩
      exact hk ▸ .minus hne hn
    · intro h
      generalize hv : k.toInt = v at h
      cases h with
      | plain hne hn => exact absurd rfl (hn.ne_cons hminus digits)
      | minus hne hn => exact ⟨_, hne, hn, by simp only [Bound.int]; omega, rfl⟩
  · next hsignPlus hsignMinus =>
    refine (map_magnitude_eq_ok_iff (f := id) hnonneg).trans ?_
    constructor
    · rintro ⟨m, hne, hn, -, hk⟩
      exact hk ▸ .plain hne hn
    · intro h
      generalize hv : k.toInt = v at h
      cases h with
      | plain hne hn => exact ⟨_, hne, hn, by simp only [Bound.int]; omega, rfl⟩
      | plus => exact absurd rfl (hsignPlus _)
      | minus => exact absurd rfl (hsignMinus _)

/-! ## Printing -/

theorem toList_intText (n : Int64) : (0 ≤ n.toInt ∧ (intText n).toList = Nat.toDigits 10 n.toInt.toNat) ∨
    (n.toInt < 0 ∧ (intText n).toList = '-' :: Nat.toDigits 10 (-n.toInt).toNat) := by
  unfold intText
  cases h : n.toInt with
  | ofNat m =>
    left
    exact ⟨by simp, by simp [toString, Int.repr, Nat.repr]⟩
  | negSucc m =>
    right
    exact ⟨by simp [Int.negSucc_lt_zero], by simp [toString, Int.repr, Nat.repr]⟩

theorem spells_toDigits_ten (n : Nat) : Spells 10 (Nat.toDigits 10 n) n := by
  simpa using spells_toDigits (f := id) (by decide) (fun d hd => ⟨hd, .inl rfl⟩) n

theorem spells_padded {width n : Nat} (hwidth : 0 < width) (h : n < 10 ^ width) :
    (padded width n).toList.length = width ∧ Spells 10 (padded width n).toList n := by
  have hlen : (Nat.toDigits 10 n).length ≤ width := (Nat.length_toDigits_le_iff (by decide) hwidth).2 h
  have htext : (padded width n).toList =
      List.replicate (width - (Nat.toDigits 10 n).length) '0' ++ Nat.toDigits 10 n := by
    rw [padded, String.toList_ofList]
  rw [htext]
  constructor
  · rw [List.length_append, List.length_replicate, Nat.sub_add_cancel hlen]
  · exact (spells_toDigits_ten n).zeros (by decide) _

theorem spellsInt_intText (n : Int64) : SpellsInt (intText n).toList n.toInt := by
  rcases toList_intText n with ⟨hsign, htext⟩ | ⟨hsign, htext⟩
  · have hback : (n.toInt.toNat : Int) = n.toInt := Int.toNat_of_nonneg hsign
    rw [htext, ← hback]
    exact .plain Nat.toDigits_ne_nil (spells_toDigits_ten _)
  · have hback : -((-n.toInt).toNat : Int) = n.toInt := by omega
    have hspells : SpellsInt ('-' :: Nat.toDigits 10 (-n.toInt).toNat) (-((-n.toInt).toNat : Int)) :=
      .minus Nat.toDigits_ne_nil (spells_toDigits_ten _)
    rw [htext]
    rwa [hback] at hspells

/-- **An integer is read back from its text.** -/
theorem readInt_intText (n : Int64) : readInt (intText n).toList = .ok n := readInt_eq_ok_iff.2 (spellsInt_intText n)

end Numeral

end PseudoVm
