import Mathlib.Data.List.TakeWhile
import PseudoVm.Image.Address
import PseudoVm.Proofs.Number.Spelling
/-!
# Image.DisplayAddress: an address names one instruction or none

A text says an address in hexadecimal behind a mark, or in decimal (`Address.Says`).  The window has room for `0x3C00`
instructions; its end, which stands for all offsets beyond, lies between two instructions.  So a text decodes to an
instruction exactly if it says that instruction's address (`addressPc?_eq_some_iff`).
-/
namespace PseudoVm

/-! ## White space at the ends -/

namespace Blank

theorem trim_eq_iff {cs body : List Char} (hbody : ∀ c ∈ body, ¬ isBlank c) :
    trim cs = body ↔ ∃ front back, cs = front ++ body ++ back ∧ (∀ c ∈ front, isBlank c) ∧ ∀ c ∈ back, isBlank c := by
  constructor
  · rintro rfl
    refine ⟨cs.takeWhile isBlank, ((cs.dropWhile isBlank).reverse.takeWhile isBlank).reverse, ?_, ?_, ?_⟩
    · rw [trim, List.append_assoc, ← List.reverse_append, List.takeWhile_append_dropWhile, List.reverse_reverse,
        List.takeWhile_append_dropWhile]
    · exact fun c hc => List.mem_takeWhile_imp hc
    · exact fun c hc => List.mem_takeWhile_imp (List.mem_reverse.1 hc)
  · rintro ⟨front, back, rfl, hfront, hback⟩
    have hback' : ∀ c ∈ back.reverse, isBlank c := fun c hc => hback c (List.mem_reverse.1 hc)
    rw [trim, List.append_assoc, List.dropWhile_append_of_pos hfront]
    cases body with
    | nil => rw [List.nil_append, List.dropWhile_eq_nil_iff.2 hback]; rfl
    | cons c body =>
      have hlast : (c :: body).reverse.dropWhile isBlank = (c :: body).reverse := by
        rw [List.dropWhile_eq_self_iff]
        exact fun hl => hbody _ (List.mem_reverse.1 (List.getElem_mem hl))
      rw [List.cons_append, List.dropWhile_cons_of_neg (hbody c List.mem_cons_self), ← List.cons_append,
        List.reverse_append, List.dropWhile_append_of_pos hback', hlast, List.reverse_reverse]

end Blank

namespace Address

/-- The number that characters write: hexadecimal behind a mark, decimal otherwise. -/
inductive Writes : List Char → Nat → Prop
  | decimal {cs : List Char} {n : Nat} (hn : Numeral.SpellsNat 10 cs n) : Writes cs n
  | hexadecimal {x : Char} {cs : List Char} {n : Nat} (hx : x = 'x' ∨ x = 'X') (hn : Numeral.SpellsNat 16 cs n) :
      Writes ('0' :: x :: cs) n

/-- The number that a text says, with white space around it. -/
def Says (text : String) (n : Nat) : Prop :=
  ∃ front body back, text.toList = front ++ body ++ back ∧ (∀ c ∈ front, isBlank c) ∧ (∀ c ∈ back, isBlank c) ∧
    Writes body n

/-! ## Reading -/

theorem toOption_readNat_eq_some_iff {radix bound n : Nat} (hpos : 0 < radix) (hr : radix ≤ 16) {cs : List Char} :
    (Numeral.readNat radix bound cs).toOption = some n ↔ Numeral.SpellsNat radix cs n ∧ n ≤ bound :=
  Except.toOption_eq_some_iff.trans (Numeral.readNat_eq_ok_iff hpos hr)

theorem not_spellsNat_marked {x : Char} {cs : List Char} {n : Nat} (hx : x = 'x' ∨ x = 'X') :
    ¬ Numeral.SpellsNat 10 ('0' :: x :: cs) n := by
  have hmark : ∀ d, ¬ Numeral.DigitOf 10 x d := by
    rcases hx with rfl | rfl <;> exact Numeral.not_digitOf (by decide) (by decide)
  intro h
  cases h with
  | plain _ hn =>
    obtain ⟨d, hd⟩ := hn.digitOf x (List.mem_cons_of_mem _ List.mem_cons_self)
    exact hmark d hd

theorem number?_eq_some_iff {cs : List Char} {n : Nat} :
    number? cs = some n ↔ Writes cs n ∧ n ≤ Numeral.wordMax := by
  have hmarked : ∀ {x : Char} {hex : List Char}, x = 'x' ∨ x = 'X' →
      (Numeral.SpellsNat 16 hex n ↔ Writes ('0' :: x :: hex) n) := by
    intro x hex hx
    refine ⟨.hexadecimal hx, fun h => ?_⟩
    cases h with
    | decimal hn => exact absurd hn (not_spellsNat_marked hx)
    | hexadecimal _ hn => exact hn
  unfold number?
  split
  · rw [toOption_readNat_eq_some_iff (by decide) (by decide), hmarked (.inl rfl)]
  · rw [toOption_readNat_eq_some_iff (by decide) (by decide), hmarked (.inr rfl)]
  · next hsmall hlarge =>
    have hdecimal : Numeral.SpellsNat 10 cs n ↔ Writes cs n := by
      refine ⟨.decimal, fun h => ?_⟩
      cases h with
      | decimal hn => exact hn
      | hexadecimal hx hn =>
        rcases hx with rfl | rfl
        · exact absurd rfl (hsmall _)
        · exact absurd rfl (hlarge _)
    rw [Numeral.readWord, toOption_readNat_eq_some_iff (by decide) (by decide), hdecimal]

theorem Writes.unique {cs : List Char} {n m : Nat} (hn : Writes cs n) (hm : Writes cs m) : n = m := by
  cases hn with
  | decimal hn =>
    cases hm with
    | decimal hm => exact hn.unique (by decide) (by decide) hm
    | hexadecimal hx => exact absurd hn (not_spellsNat_marked hx)
  | hexadecimal hx hn =>
    cases hm with
    | decimal hm => exact absurd hm (not_spellsNat_marked hx)
    | hexadecimal _ hm => exact hn.unique (by decide) (by decide) hm

theorem not_isBlank_digitChar : ∀ d < 16, ¬ isBlank d.digitChar ∧ ¬ isBlank d.digitChar.toUpper := by decide

theorem not_isBlank_of_spells {radix n : Nat} (hr : radix ≤ 16) {cs : List Char} (h : Numeral.Spells radix cs n) :
    ∀ c ∈ cs, ¬ isBlank c := by
  intro c hc
  obtain ⟨d, hd, hchar⟩ := h.digitOf c hc
  obtain ⟨hlower, hupper⟩ := not_isBlank_digitChar d (Nat.lt_of_lt_of_le hd hr)
  rcases hchar with rfl | rfl <;> assumption

theorem not_isBlank_of_spellsNat {radix n : Nat} (hr : radix ≤ 16) {cs : List Char}
    (h : Numeral.SpellsNat radix cs n) : ∀ c ∈ cs, ¬ isBlank c := by
  cases h with
  | plain _ hn => exact not_isBlank_of_spells hr hn
  | plus _ hn => exact List.forall_mem_cons.2 ⟨by decide, not_isBlank_of_spells hr hn⟩

theorem Writes.not_isBlank {cs : List Char} {n : Nat} (h : Writes cs n) : ∀ c ∈ cs, ¬ isBlank c := by
  cases h with
  | decimal hn => exact not_isBlank_of_spellsNat (by decide) hn
  | hexadecimal hx hn =>
    have hmark : ∀ x, x = 'x' ∨ x = 'X' → ¬ isBlank x := by rintro x (rfl | rfl) <;> decide
    exact List.forall_mem_cons.2
      ⟨by decide, List.forall_mem_cons.2 ⟨hmark _ hx, not_isBlank_of_spellsNat (by decide) hn⟩⟩

theorem says_iff_writes_trim {text : String} {n : Nat} : Says text n ↔ Writes (Blank.trim text.toList) n := by
  constructor
  · rintro ⟨front, body, back, htext, hfront, hback, hbody⟩
    rwa [(Blank.trim_eq_iff hbody.not_isBlank).2 ⟨front, back, htext, hfront, hback⟩]
  · intro h
    obtain ⟨front, back, htext, hfront, hback⟩ := (Blank.trim_eq_iff h.not_isBlank).1 rfl
    exact ⟨front, _, back, htext, hfront, hback, h⟩

theorem pcOf?_eq_some_iff {address pc : Nat} : pcOf? address = some pc ↔ pc < 0x3C00 ∧ address = 0x1000 + 4 * pc := by
  unfold pcOf? base width last
  split
  · rw [Option.some_inj]
    omega
  · constructor
    · rintro ⟨⟩
    · omega

end Address

theorem addressPc?_eq_some_iff {text : String} {pc : Nat} :
    addressPc? text = some pc ↔ pc < 0x3C00 ∧ Address.Says text (0x1000 + 4 * pc) := by
  simp only [addressPc?, Option.bind_eq_some_iff, Address.number?_eq_some_iff, Address.pcOf?_eq_some_iff,
    ← Address.says_iff_writes_trim]
  constructor
  · rintro ⟨_, ⟨hsaid, -⟩, hpc, rfl⟩
    exact ⟨hpc, hsaid⟩
  · rintro ⟨hpc, hsaid⟩
    have hword : 0x1000 + 4 * pc ≤ Numeral.wordMax := by
      have : Numeral.wordMax = 2 ^ 64 - 1 := rfl
      omega
    exact ⟨_, ⟨hsaid, hword⟩, hpc, rfl⟩

/-! ## Printing -/

namespace Address

theorem Says.unique {text : String} {n m : Nat} (hn : Says text n) (hm : Says text m) : n = m :=
  (says_iff_writes_trim.1 hn).unique (says_iff_writes_trim.1 hm)

theorem says_addressText (pc : Nat) : Says (addressText pc) (ofPc pc) := by
  have hhex : Numeral.Spells 16 ((Nat.toDigits 16 (ofPc pc)).map Char.toUpper) (ofPc pc) :=
    Numeral.spells_toDigits (by decide) (fun d hd => ⟨hd, .inr rfl⟩) _
  have hdigits : Numeral.SpellsNat 16 (digits (ofPc pc)) (ofPc pc) := by
    refine .plain (fun hnil => ?_) (hhex.zeros (by decide) _)
    have hmap := (List.append_eq_nil_iff.1 hnil).2
    exact Nat.toDigits_ne_nil (List.map_eq_nil_iff.1 hmap)
  refine ⟨[], _, [], ?_, fun _ h => absurd h List.not_mem_nil, fun _ h => absurd h List.not_mem_nil,
    .hexadecimal (.inl rfl) hdigits⟩
  simp [addressText]

end Address

/-- **A display address names the instruction that it was made for, or none.**  Offsets in the window are read back from
their addresses; the end of the window, which stands for all others, is nobody's address.  A text decodes exactly if it
says the address of an instruction in the window, and it says one number only. -/
theorem addresses_decode :
    (∀ pc, addressPc? (addressText pc) = if pc < 0x3C00 then some pc else none) ∧
      ∀ text pc, (addressPc? text = some pc ↔ pc < 0x3C00 ∧ Address.Says text (0x1000 + 4 * pc)) ∧
        (addressPc? text = some pc ↔ pc < 0x3C00 ∧ ∀ n, Address.Says text n ↔ n = 0x1000 + 4 * pc) := by
  refine ⟨fun pc => ?_, fun text pc => ⟨addressPc?_eq_some_iff, addressPc?_eq_some_iff.trans ?_⟩⟩
  · have hsaid := Address.says_addressText pc
    split
    · next hpc =>
      have haddress : Address.ofPc pc = 0x1000 + 4 * pc := by
        unfold Address.ofPc Address.width Address.base Address.last
        omega
      exact addressPc?_eq_some_iff.2 ⟨hpc, haddress ▸ hsaid⟩
    · next hpc =>
      have haddress : Address.ofPc pc = 0xFFFF := by
        unfold Address.ofPc Address.width Address.base Address.last
        omega
      rw [Option.eq_none_iff_forall_ne_some]
      intro p hp
      obtain ⟨-, hp⟩ := addressPc?_eq_some_iff.1 hp
      have := hsaid.unique hp
      omega
  · refine and_congr_right fun _ => ⟨fun hsaid n => ?_, fun h => (h _).2 rfl⟩
    exact ⟨fun hn => hn.unique hsaid, fun hn => hn ▸ hsaid⟩

example : addressPc? "\t0X+1004 " = some 1 ∧ addressPc? "+0x1004" = none := by decide

end PseudoVm
