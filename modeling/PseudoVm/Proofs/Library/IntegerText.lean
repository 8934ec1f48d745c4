import Mathlib.Data.List.TakeWhile
import PseudoVm.Library.Call
import PseudoVm.Proofs.Text.PrintableAscii
/-!
# Library.IntegerText: what bytes are the text of an integer

A string is understood as an integer by what it shows as text; ill-formed bytes show as a character that no integer has,
so it comes down to the bytes themselves (`WritesInt`).  Whatever is an integer is a real as well
(`RealText.isOk_read_of_spellsInt`).
-/
namespace PseudoVm

/-! ## Reals -/

namespace RealText

theorem isSome_readUnsigned_of_digits {cs : List Char} (hne : cs ≠ []) (h : ∀ c ∈ cs, c.isDigit) :
    (readUnsigned cs).isSome := by
  have hwhole : cs.takeWhile Char.isDigit = cs := List.takeWhile_eq_self_iff.2 h
  have hrest : cs.dropWhile Char.isDigit = [] := List.dropWhile_eq_nil_iff.2 h
  unfold readUnsigned
  dsimp only
  split
  · rfl
  split
  · rfl
  · unfold readDecimal
    rw [hwhole, hrest]
    simp [hne, guard]

theorem isOk_read_cons (c : Char) (rest : List Char) : (read (c :: rest)).isOk =
    (if c = '-' ∨ c = '+' then readUnsigned rest else readUnsigned (c :: rest)).isSome := by
  unfold read
  dsimp only
  by_cases hminus : c = '-'
  · rw [if_pos hminus, if_pos (.inl hminus)]
    cases readUnsigned rest <;> rfl
  by_cases hplus : c = '+'
  · rw [if_neg hminus, if_pos hplus, if_pos (.inr hplus)]
    cases readUnsigned rest <;> rfl
  · rw [if_neg hminus, if_neg hplus, if_neg (by simp [hminus, hplus])]
    cases readUnsigned (c :: rest) <;> rfl

/-- **The text of an integer is the text of a real.** -/
theorem isOk_read_of_spellsInt {cs : List Char} {v : Int} (h : Numeral.SpellsInt cs v) : (read cs).isOk := by
  have hdigits : ∀ {ds : List Char} {n : Nat}, ds ≠ [] → Numeral.Spells 10 ds n → (readUnsigned ds).isSome :=
    fun hne hn => isSome_readUnsigned_of_digits hne (Numeral.spells_ten_iff.1 hn).1
  cases h with
  | plain hne hn =>
    cases cs with
    | nil => exact absurd rfl hne
    | cons c rest =>
      have hsign : ¬ (c = '-' ∨ c = '+') := by
        have hc := (Numeral.spells_ten_iff.1 hn).1 c List.mem_cons_self
        rintro (rfl | rfl) <;> exact absurd hc (by decide)
      rw [isOk_read_cons, if_neg hsign]
      exact hdigits hne hn
  | plus hne hn =>
    rw [isOk_read_cons, if_pos (.inr rfl)]
    exact hdigits hne hn
  | minus hne hn =>
    rw [isOk_read_cons, if_pos (.inl rfl)]
    exact hdigits hne hn

end RealText

namespace Library

/-- Bytes that write an integer of 64 bits: one sign at most, and decimal digits. -/
def WritesInt (s : Bytes) (v : Int) : Prop :=
  ∃ text : String, s = bytesOf text ∧ Numeral.SpellsInt text.toList v ∧ -2 ^ 63 ≤ v ∧ v < 2 ^ 63

theorem textLossy_bytesOf (text : String) : Utf8.textLossy (bytesOf text) = text := by
  rw [Utf8.textLossy, bytesOf, Utf8.decodeLossy_encode, String.ofList_toList]

theorem bytesOf_textLossy {s : Bytes} {v : Int} (h : Numeral.SpellsInt (Utf8.textLossy s).toList v) :
    s = bytesOf (Utf8.textLossy s) := by
  rw [bytesOf, ← Printable.decodeLossy_eq_iff h.printable, Utf8.textLossy, String.toList_ofList]

/-- **A string is read as an integer exactly if its bytes write that integer.** -/
theorem writesInt_iff {s : Bytes} {v : Int} :
    WritesInt s v ↔ ∃ n : Int64, Numeral.readInt (Utf8.textLossy s).toList = .ok n ∧ n.toInt = v := by
  simp only [Numeral.readInt_eq_ok_iff]
  constructor
  · rintro ⟨text, rfl, h, hlow, hhigh⟩
    have hv : (Int64.ofInt v).toInt = v := Int64.toInt_ofInt_of_le hlow hhigh
    exact ⟨Int64.ofInt v, by rwa [textLossy_bytesOf, hv], hv⟩
  · rintro ⟨n, h, rfl⟩
    exact ⟨_, bytesOf_textLossy h, h, Int64.le_toInt n, Int64.toInt_lt n⟩

theorem exists_writesInt_iff {s : Bytes} :
    (∃ v, WritesInt s v) ↔ (Numeral.readInt (Utf8.textLossy s).toList).isOk = true := by
  simp only [writesInt_iff]
  cases Numeral.readInt (Utf8.textLossy s).toList with
  | error e => simp [Except.isOk, Except.toBool]
  | ok n => simp [Except.isOk, Except.toBool]

/-! ## The functions -/

theorem call_stringToInteger (s : Bytes) (w : World) :
    call .stringToInteger [.str s] w =
      match Numeral.readInt (Utf8.textLossy s).toList with
      | .ok n => .ok (some (.int n)) w
      | .error e => .error (.fault (rejected "stringToInteger"
          (escapedText (Utf8.textLossy s) ++ ": " ++ e.message))) w := by
  show computed (stringToInteger [.str s]) w = _
  simp only [stringToInteger, one, textOf, Value.asStr, bind, Except.bind, pure, Except.pure]
  cases Numeral.readInt (Utf8.textLossy s).toList <;> rfl

/-- **The text of an integer is told apart everywhere alike.**  `stringToInteger` succeeds exactly on the bytes that
write an integer of 64 bits, and returns that integer; `isInteger` says whether it would, and then `isReal` says yes too;
and the text that is displayed for an integer is understood as that integer. -/
theorem integer_text_alike (w : World) :
    (∀ s : Bytes,
      (∀ r w', call .stringToInteger [.str s] w = .ok r w' ↔
        ∃ v, WritesInt s v ∧ r = some (.int (Int64.ofInt v)) ∧ w' = w) ∧
      (∃ yes, call .isInteger [.str s] w = .ok (some (.bool yes)) w ∧ (yes = true ↔ ∃ v, WritesInt s v)) ∧
      ((∃ v, WritesInt s v) → call .isReal [.str s] w = .ok (some (.bool true)) w)) ∧
    ∀ n : Int64, ∃ text, w.heap.display? (.int n) = some text ∧
      call .stringToInteger [.text text] w = .ok (some (.int n)) w := by
  refine ⟨fun s => ⟨fun r w' => ?_, ⟨_, rfl, exists_writesInt_iff.symm⟩, ?_⟩, fun n => ⟨Numeral.intText n, ?_, ?_⟩⟩
  · rw [call_stringToInteger]
    simp only [writesInt_iff]
    cases Numeral.readInt (Utf8.textLossy s).toList with
    | error e => simp
    | ok n => simp [Int64.ofInt_toInt, eq_comm]
  · rintro ⟨v, text, rfl, h, -⟩
    show computed (.ok (.bool (RealText.read (Utf8.textLossy (bytesOf text)).toList).isOk)) w = _
    rw [textLossy_bytesOf, RealText.isOk_read_of_spellsInt h]
    rfl
  · rw [Heap.display?, Heap.displayFrom]
  · rw [Value.text, call_stringToInteger, textLossy_bytesOf, Numeral.readInt_intText]

/-- A sign and noughts in front. -/
theorem integer_text_alike_padded : ∃ w : World, (∃ v, WritesInt [0x2D, 0x30, 0x34] v) ∧
    call .stringToInteger [.str [0x2D, 0x30, 0x34]] w = .ok (some (.int (-4))) w ∧
    call .isReal [.str [0x2D, 0x30, 0x34]] w = .ok (some (.bool true)) w := by
  have hspells : Numeral.SpellsInt ['-', '0', '4'] (-4) :=
    .minus (n := 4) (by decide) (Numeral.spells_ten_iff.2 ⟨by simp, by decide⟩)
  have hwrites : WritesInt [0x2D, 0x30, 0x34] (-4) := ⟨"-04", by decide, hspells, by decide, by decide⟩
  refine ⟨{ console := { source := .script [] }, random := ⟨[], 0⟩ }, ⟨_, hwrites⟩, ?_⟩
  obtain ⟨hread, -, hreal⟩ := (integer_text_alike _).1 _
  exact ⟨(hread _ _).2 ⟨_, hwrites, rfl, rfl⟩, hreal ⟨_, hwrites⟩⟩

end Library

end PseudoVm
