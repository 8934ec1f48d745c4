import Mathlib.Algebra.Group.Nat.Defs
import PseudoVm.Config.Settings
import PseudoVm.Proofs.Library.FileText
/-!
# Config.Variables: what the text of a variable says

A number is digits, perhaps behind a plus sign (`wordOf?_eq_some_iff`).  Capitals outside ASCII do not lead into ASCII,
the sign for kelvin apart, so a word without a `k` is recognised in any case of its letters and in no other disguise
(`lowerCase_eq_iff_toLower`).
-/
namespace PseudoVm

/-! ## Numbers -/

/-- The texts that a 64-bit number is written as: digits, perhaps behind a plus sign. -/
def WritesWord (s : String) (n : Nat) : Prop :=
  ∃ digits : List Char, digits ≠ [] ∧ (∀ c ∈ digits, c.isDigit) ∧ (s.toList = digits ∨ s.toList = '+' :: digits) ∧
    Nat.ofDigitChars 10 digits 0 = n ∧ n < 2 ^ 64

/-- **A number is read from the texts that it is written as, and from no other.** -/
theorem wordOf?_eq_some_iff {s : String} {n : Nat} : wordOf? s = some n ↔ WritesWord s n := by
  have hmax : n ≤ Numeral.wordMax ↔ n < 2 ^ 64 := by
    have : Numeral.wordMax = 2 ^ 64 - 1 := rfl
    omega
  rw [wordOf?, Numeral.readWord, Except.toOption_eq_some_iff, Numeral.readNat_eq_ok_iff (by decide) (by decide), hmax]
  constructor
  · rintro ⟨hspells, hlt⟩
    generalize hcs : s.toList = cs at hspells
    cases hspells with
    | plain hne hn =>
      obtain ⟨hdigits, hvalue⟩ := Numeral.spells_ten_iff.1 hn
      exact ⟨_, hne, hdigits, .inl hcs, hvalue, hlt⟩
    | plus hne hn =>
      obtain ⟨hdigits, hvalue⟩ := Numeral.spells_ten_iff.1 hn
      exact ⟨_, hne, hdigits, .inr hcs, hvalue, hlt⟩
  · rintro ⟨digits, hne, hdigits, hs, hvalue, hlt⟩
    have hn := Numeral.spells_ten_iff.2 ⟨hdigits, hvalue⟩
    rcases hs with hs | hs <;> rw [hs]
    · exact ⟨.plain hne hn, hlt⟩
    · exact ⟨.plus hne hn, hlt⟩

theorem WritesWord.unique {s : String} {n m : Nat} (hn : WritesWord s n) (hm : WritesWord s m) : n = m :=
  Option.some.inj ((wordOf?_eq_some_iff.2 hn).symm.trans (wordOf?_eq_some_iff.2 hm))

/-! ## Words in any case -/

namespace LowerCase

/-- The runs of capitals outside ASCII lead to characters outside ASCII; the sign for kelvin is the one exception. -/
theorem runs_shift : ∀ r ∈ runs.toList, r.last < 0x80 ∨ (r.first = 0x212A ∧ r.last = 0x212A ∧ r.shift = -8383) ∨
    0x80 ≤ r.first + r.shift ∧ r.last + r.shift < 0x110000 ∧
      (r.last + r.shift < 0xD800 ∨ 0xDFFF < r.first + r.shift) := by decide +kernel

theorem letter_of_not_ascii {c : Char} (h : 0x80 ≤ c.toNat) : 0x80 ≤ (letter c).toNat ∨ letter c = 'k' := by
  unfold letter
  simp only
  split
  · next r hr =>
    have hmem := Array.mem_toList_iff.2 (Array.mem_of_find?_eq_some hr)
    have hrange : r.first ≤ c.toNat ∧ c.toNat ≤ r.last := by
      have := Array.find?_some hr
      simp only [Bool.and_eq_true, decide_eq_true_eq] at this
      exact this.1
    obtain hascii | ⟨hfirst, hlast, hshift⟩ | ⟨hlow, hhigh, hgap⟩ := runs_shift r hmem
    · omega
    · have hc : c.toNat = 0x212A := by omega
      exact .inr (by rw [hc, hshift]; rfl)
    · have hvalid : (Int.toNat (c.toNat + r.shift)).isValidChar := by
        simp only [Nat.isValidChar]
        omega
      exact .inl (by rw [toNat_charOfNat hvalid]; omega)
  · exact .inl h

theorem exists_mem_expand {before after : List Char} {c : Char} (h : 0x80 ≤ c.toNat) :
    ∃ d ∈ expand before c after, 0x80 ≤ d.toNat ∨ d = 'k' := by
  unfold expand
  rw [if_neg (by omega)]
  split
  · exact ⟨'\u0307', by simp, .inl (by decide)⟩
  · split
    · exact ⟨'\u03C2', by simp, .inl (by decide)⟩
    · exact ⟨letter c, by simp, letter_of_not_ascii h⟩

theorem expandFrom_of_ascii : ∀ {cs before : List Char}, (∀ c ∈ cs, c.toNat < 0x80) →
    expandFrom before cs = cs.map Char.toLower
  | [], _, _ => rfl
  | c :: cs, before, h => by
    have hc := h c List.mem_cons_self
    rw [expandFrom, expand, if_pos hc, expandFrom_of_ascii fun d hd => h d (List.mem_cons_of_mem c hd)]
    rfl

theorem exists_mem_expandFrom {c : Char} (h : 0x80 ≤ c.toNat) : ∀ (before : List Char) {cs : List Char}, c ∈ cs →
    ∃ d ∈ expandFrom before cs, 0x80 ≤ d.toNat ∨ d = 'k'
  | before, first :: rest, hmem => by
    obtain rfl | hrest := List.mem_cons.1 hmem
    · obtain ⟨d, hd, hout⟩ := exists_mem_expand h
      exact ⟨d, List.mem_append_left _ hd, hout⟩
    · obtain ⟨d, hd, hout⟩ := exists_mem_expandFrom h (first :: before) hrest
      exact ⟨d, List.mem_append_right _ hd, hout⟩

end LowerCase

/-- **A word of ASCII without a `k` is the lower case of the texts that differ from it in the case of ASCII letters
alone.** -/
theorem lowerCase_eq_iff_toLower {s : String} (word : String)
    (h : (word.toList.all fun c => c.toNat < 0x80 && c != 'k') = true) : lowerCase s = word ↔ s.toLower = word := by
  have hplain : ∀ c ∈ word.toList, c.toNat < 0x80 ∧ c ≠ 'k' := by simpa using h
  have htoLower : s.toLower.toList = s.toList.map Char.toLower := String.toList_map
  by_cases hforeign : ∃ c ∈ s.toList, 0x80 ≤ c.toNat
  · obtain ⟨c, hc, hout⟩ := hforeign
    constructor <;> rintro rfl
    · obtain ⟨d, hd, hout⟩ := LowerCase.exists_mem_expandFrom hout [] hc
      obtain ⟨hlt, hne⟩ := hplain d (by unfold lowerCase; rw [String.toList_ofList]; exact hd)
      exact absurd hout (by simp [hne]; omega)
    · have hsame : c.toLower = c := by
        unfold Char.toLower
        rw [dif_neg]
        rintro ⟨-, hz⟩
        have : c.toNat ≤ 90 := hz
        omega
      have hmem : c ∈ s.toLower.toList := by
        rw [htoLower]
        exact List.mem_map.2 ⟨c, hc, hsame⟩
      exact absurd (hplain c hmem).1 (by omega)
  · have hascii : ∀ c ∈ s.toList, c.toNat < 0x80 := fun c hc => Nat.lt_of_not_le fun hle => hforeign ⟨c, hc, hle⟩
    unfold lowerCase
    rw [LowerCase.expandFrom_of_ascii hascii, ← htoLower, String.ofList_toList]

/-- **The words that mean yes, in any case, are the texts that are true.** -/
theorem Settings.isYes_iff {s : String} :
    Settings.isYes s = true ↔ s.toLower = "true" ∨ s.toLower = "1" ∨ s.toLower = "yes" := by
  unfold Settings.isYes
  rw [decide_eq_true_iff]
  simp only [List.mem_cons, List.not_mem_nil, or_false]
  rw [lowerCase_eq_iff_toLower "true" (by decide), lowerCase_eq_iff_toLower "1" (by decide),
    lowerCase_eq_iff_toLower "yes" (by decide)]

end PseudoVm
