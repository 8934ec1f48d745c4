import PseudoVm.Proofs.Text.PrintableAscii
import PseudoVm.Text.Quoted
/-!
# Text.QuotedGrammar: what stands between two delimiters

A quoted text is a delimiter, items, and the delimiter again; each item is one byte as it is, a letter behind a
backslash or two hexadecimal digits behind `\x`, and denotes one byte (`Item`, `Denotes`).  An item is read as that byte
whatever follows it (`readInner_item`), and nothing is read that is not made of items (`items_of_readInner`), so reading
accepts exactly these texts (`read_eq_some_iff`).  Writing chooses one item for each byte (`item_writeByte`); what is
written is read back for that reason (`read_write`).
-/
namespace PseudoVm

namespace Quoted

/-- The letters that may follow a backslash, each with the character that it stands for. -/
def letters : List (Char × Char) := [('n', '\n'), ('r', '\r'), ('t', '\t'), ('\\', '\\'), ('"', '"'), ('\'', '\'')]

/-- One item of a quoted text and the byte that it denotes. -/
inductive Item (delim : UInt8) : Bytes → UInt8 → Prop
  | plain {b : UInt8} (hdelim : b ≠ delim) (hslash : b ≠ backslash) : Item delim [b] b
  | letter {e c : Char} (h : (e, c) ∈ letters) : Item delim [backslash, e.toUInt8] c.toUInt8
  | hex {hi lo : Char} {m n : Nat} (hm : Numeral.DigitOf 16 hi m) (hn : Numeral.DigitOf 16 lo n) :
      Item delim [backslash, 'x'.toUInt8, hi.toUInt8, lo.toUInt8] (UInt8.ofNat (m * 16 + n))

/-- Items one after the other, and the bytes that they denote. -/
inductive Items (delim : UInt8) : Bytes → Bytes → Prop
  | nil : Items delim [] []
  | cons {item rest bytes : Bytes} {b : UInt8} (hitem : Item delim item b) (hrest : Items delim rest bytes) :
      Items delim (item ++ rest) (b :: bytes)

/-- A line that is a quoted text, and the bytes that it denotes. -/
def Denotes (delim : UInt8) (line bytes : Bytes) : Prop :=
  ∃ inner, line = delim :: inner ++ [delim] ∧ Items delim inner bytes

/-- What two delimiters there are. -/
def IsDelim (delim : UInt8) : Prop := delim = stringDelim ∨ delim = charDelim

/-! ## Digits and letters -/

theorem toUInt8_charOfNat {n : Nat} (h : n < 256) : (Char.ofNat n).toUInt8 = UInt8.ofNat n := by
  show UInt8.ofNat (Char.ofNat n).toNat = UInt8.ofNat n
  rw [toNat_charOfNat (Or.inl (by omega))]

theorem hexValue?_ofNat : ∀ n < 256,
    hexValue? (UInt8.ofNat n) = (Numeral.digit? 16 (Char.ofNat n)).map UInt8.ofNat := by decide +kernel

theorem hexValue?_digitChar : ∀ n < 16, hexValue? n.digitChar.toUInt8 = some (UInt8.ofNat n) ∧
    hexValue? n.digitChar.toUpper.toUInt8 = some (UInt8.ofNat n) := by decide

theorem hexValue?_eq_some_iff {b v : UInt8} :
    hexValue? b = some v ↔ ∃ c n, c.toUInt8 = b ∧ Numeral.DigitOf 16 c n ∧ UInt8.ofNat n = v := by
  constructor
  · intro h
    have hb : b.toNat < 256 := UInt8.toNat_lt b
    rw [← UInt8.ofNat_toNat (x := b), hexValue?_ofNat b.toNat hb] at h
    obtain ⟨n, hn, rfl⟩ := Option.map_eq_some_iff.1 h
    refine ⟨Char.ofNat b.toNat, n, ?_, (Numeral.digit?_eq_some_iff (by decide)).1 hn, rfl⟩
    rw [toUInt8_charOfNat hb, UInt8.ofNat_toNat]
  · rintro ⟨c, n, rfl, ⟨hn, hc⟩, rfl⟩
    obtain ⟨hlower, hupper⟩ := hexValue?_digitChar n hn
    rcases hc with rfl | rfl
    · exact hlower
    · exact hupper

theorem ofNat_hex (m n : Nat) : UInt8.ofNat (m * 16 + n) = UInt8.ofNat m * 16 + UInt8.ofNat n := by
  rw [UInt8.ofNat_add, UInt8.ofNat_mul]
  rfl

theorem letter?_of_mem : ∀ p ∈ letters, letter? p.1.toUInt8 = some p.2.toUInt8 ∧ p.1.toUInt8 ≠ 0x78 := by decide

theorem letters_printable : ∀ p ∈ letters, PrintableByte p.1.toUInt8 := by decide

theorem mem_letters_of_letter? {e c : UInt8} (h : letter? e = some c) :
    ∃ p ∈ letters, p.1.toUInt8 = e ∧ p.2.toUInt8 = c := by
  unfold letter? at h
  split at h
  · next he => exact ⟨('n', '\n'), by decide, he.symm, Option.some.inj h⟩
  split at h
  · next he => exact ⟨('r', '\r'), by decide, he.symm, Option.some.inj h⟩
  split at h
  · next he => exact ⟨('t', '\t'), by decide, he.symm, Option.some.inj h⟩
  split at h
  · next he =>
    obtain rfl := Option.some.inj h
    rcases he with rfl | rfl | rfl
    · exact ⟨('\\', '\\'), by decide, rfl, rfl⟩
    · exact ⟨('"', '"'), by decide, rfl, rfl⟩
    · exact ⟨('\'', '\''), by decide, rfl, rfl⟩
  · cases h

/-! ## Reading -/

theorem IsDelim.ne_backslash {delim : UInt8} (hd : IsDelim delim) : backslash ≠ delim := by
  rcases hd with rfl | rfl <;> decide

section Reading

variable {delim : UInt8}

theorem readInner_escape (hd : IsDelim delim) {e c : UInt8} (hx : e ≠ 0x78) (he : letter? e = some c) (rest : Bytes) :
    readInner delim (backslash :: e :: rest) = (readInner delim rest).map (c :: ·) := by
  rw [readInner.eq_def]
  simp only [if_neg hd.ne_backslash, if_pos, if_neg hx, he]
  cases readInner delim rest <;> rfl

theorem readInner_hex (hd : IsDelim delim) {hi lo m n : UInt8} (hm : hexValue? hi = some m) (hn : hexValue? lo = some n)
    (rest : Bytes) :
    readInner delim (backslash :: 0x78 :: hi :: lo :: rest) = (readInner delim rest).map ((m * 16 + n) :: ·) := by
  rw [readInner.eq_def]
  simp only [if_neg hd.ne_backslash, if_true, hm, hn]
  cases readInner delim rest <;> rfl

/-- **An item is read as the byte that it denotes,** whatever follows it. -/
theorem readInner_item (hd : IsDelim delim) {item : Bytes} {b : UInt8} (h : Item delim item b) (rest : Bytes) :
    readInner delim (item ++ rest) = (readInner delim rest).map (b :: ·) := by
  cases h with
  | plain hdelim hslash =>
    rw [List.singleton_append, readInner.eq_def]
    simp only [if_neg hdelim, if_neg hslash]
  | letter hmem =>
    obtain ⟨he, hx⟩ := letter?_of_mem _ hmem
    exact readInner_escape hd hx he rest
  | @hex hi lo m n hm hn =>
    rw [ofNat_hex]
    exact readInner_hex hd (hexValue?_eq_some_iff.2 ⟨hi, m, rfl, hm, rfl⟩)
      (hexValue?_eq_some_iff.2 ⟨lo, n, rfl, hn, rfl⟩) rest

theorem readInner_of_items (hd : IsDelim delim) {inner bytes : Bytes} (h : Items delim inner bytes) :
    readInner delim inner = some bytes := by
  induction h with
  | nil => rfl
  | cons hitem hrest ih => rw [readInner_item hd hitem, ih, Option.map_some]

theorem items_of_readInner {inner bytes : Bytes} (h : readInner delim inner = some bytes) :
    Items delim inner bytes := by
  -- the cases of the reading: nothing is left, or it gives up (three of them), or it takes one item off
  fun_induction readInner delim inner generalizing bytes with
  | case1 =>
    obtain rfl := Option.some.inj h
    exact .nil
  | case2 | case3 | case5 => cases h
  | case4 hi lo rest hslash ih =>
    obtain ⟨_, hhi, h⟩ := Option.bind_eq_some_iff.1 h
    obtain ⟨_, hlo, h⟩ := Option.bind_eq_some_iff.1 h
    obtain ⟨tail, htail, h⟩ := Option.bind_eq_some_iff.1 h
    obtain rfl := Option.some.inj h
    obtain ⟨c, m, rfl, hm, rfl⟩ := hexValue?_eq_some_iff.1 hhi
    obtain ⟨d, n, rfl, hn, rfl⟩ := hexValue?_eq_some_iff.1 hlo
    rw [← ofNat_hex]
    exact .cons (.hex hm hn) (ih htail)
  | case6 e rest hx hslash ih =>
    obtain ⟨c, hc, h⟩ := Option.bind_eq_some_iff.1 h
    obtain ⟨tail, htail, h⟩ := Option.bind_eq_some_iff.1 h
    obtain rfl := Option.some.inj h
    obtain ⟨_, hmem, rfl, rfl⟩ := mem_letters_of_letter? hc
    exact .cons (.letter hmem) (ih htail)
  | case7 b rest hdelim hslash ih =>
    obtain ⟨tail, htail, rfl⟩ := Option.map_eq_some_iff.1 h
    exact .cons (.plain hdelim hslash) (ih htail)

/-- **A line is read as the bytes that it denotes as a quoted text,** and not at all if it is none. -/
theorem read_eq_some_iff (hd : IsDelim delim) {line bytes : Bytes} :
    read delim line = some bytes ↔ Denotes delim line bytes := by
  constructor
  · intro h
    cases line with
    | nil => cases h
    | cons b rest =>
      rw [read] at h
      split at h
      · next hends =>
        obtain ⟨rfl, hlast⟩ := hends
        obtain ⟨inner, rfl⟩ := List.getLast?_eq_some_iff.1 hlast
        rw [List.dropLast_concat] at h
        exact ⟨inner, rfl, items_of_readInner h⟩
      · cases h
  · rintro ⟨inner, rfl, hitems⟩
    have hlast : (inner ++ [delim]).getLast? = some delim := List.getLast?_concat
    rw [List.cons_append, read, if_pos ⟨rfl, hlast⟩, List.dropLast_concat]
    exact readInner_of_items hd hitems

end Reading

/-! ## Writing -/

section Writing

variable {delim : UInt8}

theorem hexDigit_ofNat : ∀ n < 16,
    hexDigit (UInt8.ofNat n) = n.digitChar.toUInt8 ∧ PrintableByte n.digitChar.toUInt8 := by decide

theorem hexDigits (b : UInt8) : b.toNat / 16 < 16 ∧ b.toNat % 16 < 16 ∧
    hexDigit (b / 16) = (b.toNat / 16).digitChar.toUInt8 ∧ hexDigit (b % 16) = (b.toNat % 16).digitChar.toUInt8 := by
  have hb : b.toNat < 256 := UInt8.toNat_lt b
  have hdiv : b / 16 = UInt8.ofNat (b.toNat / 16) := by
    apply UInt8.toNat_inj.1
    rw [UInt8.toNat_div, UInt8.toNat_ofNat']
    show b.toNat / 16 = b.toNat / 16 % 256
    omega
  have hmod : b % 16 = UInt8.ofNat (b.toNat % 16) := by
    apply UInt8.toNat_inj.1
    rw [UInt8.toNat_mod, UInt8.toNat_ofNat']
    show b.toNat % 16 = b.toNat % 16 % 256
    omega
  rw [hdiv, hmod]
  have hhigh : b.toNat / 16 < 16 := by omega
  have hlow : b.toNat % 16 < 16 := by omega
  exact ⟨hhigh, hlow, (hexDigit_ofNat _ hhigh).1, (hexDigit_ofNat _ hlow).1⟩

/-- **Every byte is written as an item that denotes it,** in printable ASCII. -/
theorem item_writeByte (hd : IsDelim delim) (b : UInt8) :
    Item delim (writeByte delim b) b ∧ ∀ c ∈ writeByte delim b, PrintableByte c := by
  -- what is written behind a backslash as a letter
  have hletter : ∀ p ∈ letters, Item delim [backslash, p.1.toUInt8] p.2.toUInt8 ∧
      ∀ c ∈ [backslash, p.1.toUInt8], PrintableByte c := by
    intro p hp
    simp only [List.forall_mem_cons]
    exact ⟨.letter hp, by decide, letters_printable p hp, by simp⟩
  unfold writeByte
  split
  · next h =>
    subst h
    exact hletter ('\\', '\\') (by decide)
  split
  · next h =>
    subst h
    exact hletter ('n', '\n') (by decide)
  split
  · next h =>
    subst h
    exact hletter ('r', '\r') (by decide)
  split
  · next h =>
    subst h
    exact hletter ('t', '\t') (by decide)
  split
  · next h =>
    subst h
    rcases hd with rfl | rfl
    · exact hletter ('"', '"') (by decide)
    · exact hletter ('\'', '\'') (by decide)
  split
  · next hslash _ _ _ hdelim hprint =>
    exact ⟨.plain hdelim hslash, List.forall_mem_singleton.2 hprint⟩
  · obtain ⟨hhigh, hlow, hm, hn⟩ := hexDigits b
    rw [hm, hn]
    constructor
    · have hb : UInt8.ofNat (b.toNat / 16 * 16 + b.toNat % 16) = b := by
        rw [Nat.div_add_mod', UInt8.ofNat_toNat]
      have hitem : Item delim _ _ := .hex ⟨hhigh, .inl rfl⟩ ⟨hlow, .inl rfl⟩
      rwa [hb] at hitem
    · simp only [List.forall_mem_cons]
      exact ⟨by decide, by decide, (hexDigit_ofNat _ hhigh).2, (hexDigit_ofNat _ hlow).2, by simp⟩

theorem items_flatMap_writeByte (hd : IsDelim delim) (bytes : Bytes) :
    Items delim (bytes.flatMap (writeByte delim)) bytes := by
  induction bytes with
  | nil => exact .nil
  | cons b bytes ih => exact .cons (item_writeByte hd b).1 ih

/-- **What is written denotes the bytes it was written for.** -/
theorem denotes_write (hd : IsDelim delim) (bytes : Bytes) : Denotes delim (write delim bytes) bytes :=
  ⟨_, rfl, items_flatMap_writeByte hd bytes⟩

/-- **Bytes written between delimiters are read back.** -/
theorem read_write (hd : IsDelim delim) (bytes : Bytes) : read delim (write delim bytes) = some bytes :=
  (read_eq_some_iff hd).2 (denotes_write hd bytes)

theorem write_printable (hd : IsDelim delim) (bytes : Bytes) : ∀ c ∈ write delim bytes, PrintableByte c := by
  have hdelim : PrintableByte delim := by rcases hd with rfl | rfl <;> decide
  intro c hc
  simp only [write, List.cons_append, List.mem_cons, List.mem_append, List.mem_flatMap, List.not_mem_nil,
    or_false] at hc
  rcases hc with rfl | ⟨b, -, hb⟩ | rfl
  · exact hdelim
  · exact (item_writeByte hd b).2 c hb
  · exact hdelim

end Writing

/-- **Quoted texts are what their grammar says.**  A line is read between two delimiters exactly if it is a quoted text,
as the bytes that its items denote; and any bytes are written in printable ASCII, as a quoted text that denotes them. -/
theorem quoted_texts_exact {delim : UInt8} (hd : IsDelim delim) :
    (∀ line bytes : Bytes, read delim line = some bytes ↔ Denotes delim line bytes) ∧
    ∀ bytes : Bytes, (∀ c ∈ write delim bytes, PrintableByte c) ∧ Denotes delim (write delim bytes) bytes :=
  ⟨fun _ _ => read_eq_some_iff hd, fun bytes => ⟨write_printable hd bytes, denotes_write hd bytes⟩⟩

/-- Capital digits and an escaped delimiter; a delimiter that is escaped does not end the text. -/
theorem quoted_texts_exact_escapes : IsDelim stringDelim ∧
    Denotes stringDelim (bytesOf "\"\\xFA\\\"'\"") [0xFA, 0x22, 0x27] ∧
    (∀ bytes, ¬ Denotes stringDelim (bytesOf "\"a\\\"") bytes) ∧
    Denotes stringDelim (write stringDelim [0xFA, 0x22, 0x27]) [0xFA, 0x22, 0x27] := by
  have hd : IsDelim stringDelim := .inl rfl
  obtain ⟨hread, hwrite⟩ := quoted_texts_exact hd
  have hitems : read stringDelim (bytesOf "\"\\xFA\\\"'\"") = some [0xFA, 0x22, 0x27] := by decide +kernel
  have hopen : read stringDelim (bytesOf "\"a\\\"") = none := by decide +kernel
  refine ⟨hd, (hread _ _).1 hitems, fun bytes h => ?_, (hwrite _).2⟩
  rw [(hread _ _).2 h] at hopen
  cases hopen

end Quoted

end PseudoVm
