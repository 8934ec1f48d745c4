import PseudoVm.Proofs.Number.Spelling
import PseudoVm.Proofs.Text.Utf8RoundTrip
import PseudoVm.Text.Lines
/-!
# Text.PrintableAscii: text that is the same in bytes and in characters

Printable ASCII has one byte to a character.  It survives being cut into lines and trimmed (`Printable.line`), and even
where ill-formed bytes are shown as something else, it is read from its own bytes only (`Printable.decodeLossy_eq_iff`).
The text of a number is printable.
-/
namespace PseudoVm

theorem toNat_charOfNat {n : Nat} (h : n.isValidChar) : (Char.ofNat n).toNat = n := by
  rw [Char.ofNat, dif_pos h]
  rfl

/-- A printable ASCII character. -/
def Printable (c : Char) : Prop := ' ' ≤ c ∧ c ≤ '~'

theorem Printable.toNat {c : Char} (h : Printable c) : 0x20 ≤ c.toNat ∧ c.toNat ≤ 0x7E := h

theorem Printable.of_all {cs : List Char} (h : (cs.all fun c => decide (0x20 ≤ c.toNat ∧ c.toNat ≤ 0x7E)) = true) :
    ∀ c ∈ cs, Printable c := by
  intro c hc
  have hcode : 0x20 ≤ c.toNat ∧ c.toNat ≤ 0x7E := of_decide_eq_true (List.all_eq_true.1 h c hc)
  exact hcode

theorem Printable.of_isDigit {c : Char} (h : c.isDigit) : Printable c := by
  have hrange : 48 ≤ c.toNat ∧ c.toNat ≤ 57 := by simpa [Char.isDigit, UInt32.le_iff_toNat_le] using h
  constructor
  · show 0x20 ≤ c.toNat; omega
  · show c.toNat ≤ 0x7E; omega

theorem Printable.not_isEnding {c : Char} (h : Printable c) : Lines.isEnding c = false := by
  have hn := h.toNat
  have hlf : c ≠ '\n' := by rintro rfl; revert hn; decide
  have hcr : c ≠ '\r' := by rintro rfl; revert hn; decide
  simp [Lines.isEnding, hlf, hcr]

theorem Printable.encode {cs : List Char} (h : ∀ c ∈ cs, Printable c) :
    Utf8.encode cs = cs.map fun c => UInt8.ofNat c.toNat := by
  induction cs with
  | nil => rfl
  | cons c cs ih =>
    have hc : String.utf8EncodeChar c = [UInt8.ofNat c.toNat] := by
      have hle : c.val.toNat ≤ 0x7F := Nat.le_trans (h c (by simp)).toNat.2 (by decide)
      simp only [String.utf8EncodeChar, hle, if_true]
      rfl
    rw [Utf8.encode, List.flatMap_cons, hc, List.map_cons]
    exact congrArg _ (ih fun d hd => h d (by simp [hd]))

theorem Printable.feed_not_mem {s : String} (h : ∀ c ∈ s.toList, Printable c) : (0x0A : UInt8) ∉ bytesOf s := by
  rw [bytesOf, Printable.encode h]
  intro hmem
  obtain ⟨c, hc, hb⟩ := List.mem_map.1 hmem
  have hn := (h c hc).toNat
  have hten : c.toNat = 10 := by rw [← Utf8.toNat_ofNat (show c.toNat < 256 by omega), hb]; rfl
  omega

theorem Utf8.bytesOf_append (s t : String) : bytesOf (s ++ t) = bytesOf s ++ bytesOf t := by
  simp [bytesOf, Utf8.encode]

theorem Printable.line {s : String} (h : ∀ c ∈ s.toList, Printable c) :
    Utf8.text? (bytesOf s ++ [0x0A]) = some (s ++ "\n") ∧ trimLineEnd (s ++ "\n") = s := by
  constructor
  · have hfeed : bytesOf "\n" = [0x0A] := by decide
    rw [← hfeed, ← Utf8.bytesOf_append, Utf8.text?_bytesOf]
  · have hrev : s.toList.reverse.dropWhile Lines.isEnding = s.toList.reverse := by
      cases hs : s.toList.reverse with
      | nil => rfl
      | cons c cs =>
        have hc : c ∈ s.toList := List.mem_reverse.1 (by rw [hs]; simp)
        rw [List.dropWhile_cons_of_neg (by simp [(h c hc).not_isEnding])]
    have hcut : ((s ++ "\n").toList.reverse.dropWhile Lines.isEnding) = s.toList.reverse := by
      rw [String.toList_append, List.reverse_append]
      exact hrev
    rw [trimLineEnd, Lines.trimEnd, hcut, List.reverse_reverse, String.ofList_toList]

/-- ASCII bytes as text. -/
def asciiText (bytes : Bytes) : String := String.ofList (bytes.map fun b => Char.ofNat b.toNat)

/-- A byte of a printable ASCII character. -/
def PrintableByte (b : UInt8) : Prop := 0x20 ≤ b ∧ b ≤ 0x7E

instance (b : UInt8) : Decidable (PrintableByte b) := inferInstanceAs (Decidable (0x20 ≤ b ∧ b ≤ 0x7E))

theorem PrintableByte.toNat {b : UInt8} (h : PrintableByte b) : 0x20 ≤ b.toNat ∧ b.toNat ≤ 0x7E :=
  ⟨UInt8.le_iff_toNat_le.1 h.1, UInt8.le_iff_toNat_le.1 h.2⟩

theorem PrintableByte.toNat_char {b : UInt8} (h : PrintableByte b) : (Char.ofNat b.toNat).toNat = b.toNat := by
  have hb := h.toNat
  exact toNat_charOfNat (Or.inl (by omega))

theorem PrintableByte.char {b : UInt8} (h : PrintableByte b) : Printable (Char.ofNat b.toNat) := by
  have hb := h.toNat
  have hn := h.toNat_char
  constructor
  · show 0x20 ≤ (Char.ofNat b.toNat).toNat; omega
  · show (Char.ofNat b.toNat).toNat ≤ 0x7E; omega

theorem asciiText_printable {bytes : Bytes} (h : ∀ b ∈ bytes, PrintableByte b) :
    ∀ c ∈ (asciiText bytes).toList, Printable c := by
  intro c hc
  rw [asciiText, String.toList_ofList] at hc
  obtain ⟨b, hb, rfl⟩ := List.mem_map.1 hc
  exact (h b hb).char

theorem bytesOf_asciiText {bytes : Bytes} (h : ∀ b ∈ bytes, PrintableByte b) : bytesOf (asciiText bytes) = bytes := by
  have hback : ∀ b ∈ bytes, UInt8.ofNat (Char.ofNat b.toNat).toNat = b := by
    intro b hb
    rw [(h b hb).toNat_char, UInt8.ofNat_toNat]
  have hall : (bytes.map fun b => UInt8.ofNat (Char.ofNat b.toNat).toNat) = bytes := by
    rw [List.map_congr_left hback, List.map_id']
  rw [bytesOf, Printable.encode (asciiText_printable h), asciiText, String.toList_ofList, List.map_map]
  exact hall

/-! ## What bytes are printable text -/

namespace Utf8

/-- The bytes of a character gathered so far leave no room for one of the first 128. -/
def Partial.Wide (p : Partial) : Prop :=
  2 ≤ p.bits * 64 + (p.low.toNat - 0x80) ∧ (p.owed ≤ 1 → 2 ≤ p.bits)

theorem lead_cases (b : UInt8) : lead b = none ∨ (b.toNat < 0x80 ∧ lead b = some (.inl (Char.ofNat b.toNat))) ∨
    ∃ p : Partial, p.Wide ∧ lead b = some (.inr p) := by
  have hlead := lead_ofNat (UInt8.toNat_lt b)
  rw [UInt8.ofNat_toNat] at hlead
  have hpart : ∀ {owed bits : Nat} {low high : UInt8} {n : Nat}, low.toNat = n → 2 ≤ bits * 64 + (n - 0x80) →
      (owed ≤ 1 → 2 ≤ bits) → lead b = some (.inr ⟨owed, low, high, bits⟩) →
      ∃ p : Partial, p.Wide ∧ lead b = some (.inr p) := by
    rintro owed bits low high _ rfl hleast hlast h
    exact ⟨⟨owed, low, high, bits⟩, ⟨hleast, hlast⟩, h⟩
  by_cases h1 : b.toNat < 0x80
  · rw [if_pos h1] at hlead
    exact .inr (.inl ⟨h1, hlead⟩)
  rw [if_neg h1] at hlead
  by_cases h2 : b.toNat < 0xC2
  · rw [if_pos h2] at hlead
    exact .inl hlead
  rw [if_neg h2] at hlead
  -- a first byte that brings few bits with it asks for a second one that makes up for them
  split at hlead
  · exact .inr (.inr (hpart (n := 0x80) rfl (by omega) (by omega) hlead))
  split at hlead
  · exact .inr (.inr (hpart (n := 0xA0) rfl (by omega) (by omega) hlead))
  split at hlead
  · exact .inr (.inr (hpart (n := 0x80) rfl (by omega) (by omega) hlead))
  split at hlead
  · exact .inr (.inr (hpart (n := 0x80) rfl (by omega) (by omega) hlead))
  split at hlead
  · exact .inr (.inr (hpart (n := 0x90) rfl (by omega) (by omega) hlead))
  split at hlead
  · exact .inr (.inr (hpart (n := 0x80) rfl (by omega) (by omega) hlead))
  split at hlead
  · exact .inr (.inr (hpart (n := 0x80) rfl (by omega) (by omega) hlead))
  · exact .inl hlead

theorem not_printable_ofNat {n : Nat} (h : 0x7E < n) : ¬ Printable (Char.ofNat n) := by
  intro hp
  have hn := hp.toNat
  by_cases hvalid : n.isValidChar
  · rw [toNat_charOfNat hvalid] at hn
    omega
  · rw [Char.ofNat, dif_neg hvalid] at hn
    exact absurd hn (by decide)

theorem not_printable_replacement : ¬ Printable replacement := fun h => absurd h.2 (by decide)

theorem itemsFrom_wide (bytes : Bytes) : ∀ {p : Partial}, p.Wide →
    ∃ item rest, itemsFrom (some p) bytes = item :: rest ∧ ¬ Printable (item.getD replacement) := by
  have hcut : ∀ {rest : List (Option Char)}, ∃ item rest', none :: rest = item :: rest' ∧
      ¬ Printable (item.getD replacement) := by
    intro rest
    refine ⟨none, rest, rfl, ?_⟩
    rw [Option.getD_none]
    exact not_printable_replacement
  induction bytes with
  | nil => exact fun _ => hcut
  | cons b bytes ih =>
    intro p hp
    obtain ⟨hleast, hlast⟩ := hp
    rw [itemsFrom]
    split
    · next hin =>
      have hlow : p.low.toNat ≤ b.toNat := UInt8.le_iff_toNat_le.1 hin.1
      split
      · next howed =>
        refine ⟨some _, _, rfl, ?_⟩
        rw [Option.getD_some]
        apply not_printable_ofNat
        have := hlast howed
        unfold Partial.gather
        omega
      · have hnext : 2 ≤ p.gather b := by
          unfold Partial.gather
          omega
        have hmore : p.gather b ≤ p.gather b * 64 := Nat.le_mul_of_pos_right _ (by decide)
        exact ih ⟨Nat.le_trans hnext (Nat.le_trans hmore (Nat.le_add_right _ _)), fun _ => hnext⟩
    · exact hcut

theorem decodeLossy_cons (b : UInt8) (bytes : Bytes) : ∃ c cs, decodeLossy (b :: bytes) = c :: cs ∧
    (Printable c → b.toNat = c.toNat ∧ cs = decodeLossy bytes) := by
  unfold decodeLossy items
  rw [itemsFrom]
  obtain hb | ⟨hlt, hb⟩ | ⟨p, hp, hb⟩ := lead_cases b <;> rw [hb]
  · refine ⟨_, _, List.map_cons, fun h => ?_⟩
    rw [Option.getD_none] at h
    exact absurd h not_printable_replacement
  · refine ⟨_, _, List.map_cons, fun _ => ⟨?_, rfl⟩⟩
    rw [Option.getD_some, toNat_charOfNat (Or.inl (by omega))]
  · obtain ⟨item, rest, hitems, hnot⟩ := itemsFrom_wide bytes hp
    dsimp only
    rw [hitems]
    exact ⟨_, _, List.map_cons, fun h => absurd h hnot⟩

theorem decodeLossy_encode (cs : List Char) : decodeLossy (encode cs) = cs := by
  rw [decodeLossy, items_encode, List.map_map]
  exact List.map_id' cs

end Utf8

/-- **Printable text is read from its own bytes only.** -/
theorem Printable.decodeLossy_eq_iff {cs : List Char} (h : ∀ c ∈ cs, Printable c) {bytes : Bytes} :
    Utf8.decodeLossy bytes = cs ↔ bytes = Utf8.encode cs := by
  constructor
  · intro hread
    rw [Printable.encode h]
    induction cs generalizing bytes with
    | nil =>
      cases bytes with
      | nil => rfl
      | cons b bytes =>
        obtain ⟨c, cs, hcons, -⟩ := Utf8.decodeLossy_cons b bytes
        rw [hcons] at hread
        cases hread
    | cons c cs ih =>
      obtain ⟨hc, hcs⟩ := List.forall_mem_cons.1 h
      cases bytes with
      | nil => cases hread
      | cons b bytes =>
        obtain ⟨c', cs', hcons, hfirst⟩ := Utf8.decodeLossy_cons b bytes
        rw [hcons] at hread
        cases hread
        obtain ⟨hb, hrest⟩ := hfirst hc
        rw [List.map_cons, ← ih hcs hrest.symm, ← hb, UInt8.ofNat_toNat]
  · rintro rfl
    exact Utf8.decodeLossy_encode cs

/-! ## Integers -/

namespace Numeral

theorem Spells.printable {cs : List Char} {n : Nat} (h : Spells 10 cs n) : ∀ c ∈ cs, Printable c := fun c hc =>
  .of_isDigit ((spells_ten_iff.1 h).1 c hc)

theorem SpellsInt.printable {cs : List Char} {v : Int} (h : SpellsInt cs v) : ∀ c ∈ cs, Printable c := by
  cases h with
  | plain _ hn => exact hn.printable
  | plus _ hn | minus _ hn => exact List.forall_mem_cons.2 ⟨⟨by decide, by decide⟩, hn.printable⟩

theorem intText_printable (n : Int64) : ∀ c ∈ (intText n).toList, Printable c := (spellsInt_intText n).printable

end Numeral

end PseudoVm
