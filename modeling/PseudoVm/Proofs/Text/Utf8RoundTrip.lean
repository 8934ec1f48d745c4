import PseudoVm.Text.Utf8
/-!
# Text.Utf8RoundTrip: every text is read back from its bytes

The reader takes the bytes of a character one at a time and is between characters again after the last of them, for
characters of one to four bytes (`itemsFrom_encodeChar`).  So the bytes of a text are well formed and stand for that
text (`text?_bytesOf`).
-/
namespace PseudoVm

namespace Utf8

theorem toNat_ofNat {n : Nat} (h : n < 256) : (UInt8.ofNat n).toNat = n := by simp; omega

theorem ofNat_lt {n : Nat} (h : n < 256) (b : UInt8) : UInt8.ofNat n < b ↔ n < b.toNat := by
  rw [UInt8.lt_iff_toNat_lt, toNat_ofNat h]

theorem ofNat_beq {n : Nat} (h : n < 256) (b : UInt8) : (UInt8.ofNat n == b) = decide (n = b.toNat) := by
  rw [Bool.eq_iff_iff, beq_iff_eq, decide_eq_true_eq, ← UInt8.toNat_inj, toNat_ofNat h]

theorem lead_ofNat {n : Nat} (h : n < 256) : lead (UInt8.ofNat n) =
    if n < 0x80 then some (.inl (Char.ofNat n))
    else if n < 0xC2 then none
    else if n < 0xE0 then some (.inr ⟨1, 0x80, 0xBF, n - 0xC0⟩)
    else if n = 0xE0 then some (.inr ⟨2, 0xA0, 0xBF, 0⟩)
    else if n = 0xED then some (.inr ⟨2, 0x80, 0x9F, 0xD⟩)
    else if n < 0xF0 then some (.inr ⟨2, 0x80, 0xBF, n - 0xE0⟩)
    else if n = 0xF0 then some (.inr ⟨3, 0x90, 0xBF, 0⟩)
    else if n < 0xF4 then some (.inr ⟨3, 0x80, 0xBF, n - 0xF0⟩)
    else if n = 0xF4 then some (.inr ⟨3, 0x80, 0x8F, 4⟩)
    else none := by
  simp only [lead, ofNat_lt h, ofNat_beq h, toNat_ofNat h, decide_eq_true_eq]
  rfl

theorem gather_ofNat (p : Partial) {n : Nat} (h : n < 64) : p.gather (UInt8.ofNat (n + 0x80)) = p.bits * 64 + n := by
  have hb : (UInt8.ofNat (n + 0x80)).toNat = n + 0x80 := toNat_ofNat (by omega)
  unfold Partial.gather
  omega

theorem bounds_ofNat {low high : UInt8} {n : Nat} (h : n < 64) (hlow : low.toNat ≤ n + 0x80)
    (hhigh : n + 0x80 ≤ high.toNat) :
    low ≤ UInt8.ofNat (n + 0x80) ∧ UInt8.ofNat (n + 0x80) ≤ high := by
  have hb : (UInt8.ofNat (n + 0x80)).toNat = n + 0x80 := toNat_ofNat (by omega)
  rw [UInt8.le_iff_toNat_le, UInt8.le_iff_toNat_le, hb]
  exact ⟨hlow, hhigh⟩

theorem itemsFrom_last {low high : UInt8} {n : Nat} (h : n < 64) (hlow : low.toNat ≤ n + 0x80)
    (hhigh : n + 0x80 ≤ high.toNat) (bits : Nat) (rest : Bytes) :
    itemsFrom (some ⟨1, low, high, bits⟩) (UInt8.ofNat (n + 0x80) :: rest) =
      some (Char.ofNat (bits * 64 + n)) :: itemsFrom none rest := by
  rw [itemsFrom, if_pos (bounds_ofNat h hlow hhigh), if_pos (Nat.le_refl 1), gather_ofNat _ h]

/-- A byte of a character that is not its last: after it any byte of the second kind may follow. -/
theorem itemsFrom_more {low high : UInt8} {n : Nat} (h : n < 64) (hlow : low.toNat ≤ n + 0x80)
    (hhigh : n + 0x80 ≤ high.toNat) (owed bits : Nat) (rest : Bytes) :
    itemsFrom (some ⟨owed + 2, low, high, bits⟩) (UInt8.ofNat (n + 0x80) :: rest) =
      itemsFrom (some ⟨owed + 1, 0x80, 0xBF, bits * 64 + n⟩) rest := by
  rw [itemsFrom, if_pos (bounds_ofNat h hlow hhigh), if_neg (by simp), gather_ofNat _ h, Nat.add_sub_assoc (by decide)]

theorem itemsFrom_last_free {n : Nat} (h : n < 64) (bits : Nat) (rest : Bytes) :
    itemsFrom (some ⟨1, 0x80, 0xBF, bits⟩) (UInt8.ofNat (n + 0x80) :: rest) =
      some (Char.ofNat (bits * 64 + n)) :: itemsFrom none rest :=
  itemsFrom_last h (Nat.le_add_left _ _) (by show n + 0x80 ≤ 0xBF; omega) bits rest

theorem itemsFrom_more_free {n : Nat} (h : n < 64) (owed bits : Nat) (rest : Bytes) :
    itemsFrom (some ⟨owed + 2, 0x80, 0xBF, bits⟩) (UInt8.ofNat (n + 0x80) :: rest) =
      itemsFrom (some ⟨owed + 1, 0x80, 0xBF, bits * 64 + n⟩) rest :=
  itemsFrom_more h (Nat.le_add_left _ _) (by show n + 0x80 ≤ 0xBF; omega) owed bits rest

/-- Two bytes: the first has the bits above the sixth. -/
theorem itemsFrom_two {v : Nat} (hlow : 0x80 ≤ v) (hhigh : v < 0x800) (rest : Bytes) :
    itemsFrom none (UInt8.ofNat (v / 64 % 32 + 0xC0) :: UInt8.ofNat (v % 64 + 0x80) :: rest) =
      some (Char.ofNat v) :: itemsFrom none rest := by
  have hsum : (v / 64 % 32 + 0xC0 - 0xC0) * 64 + v % 64 = v := by omega
  rw [itemsFrom, lead_ofNat (by omega), if_neg (by omega), if_neg (by omega), if_pos (by omega)]
  exact (itemsFrom_last_free (by omega) _ _).trans (by rw [hsum])

/-- Three bytes.  The bounds of the second depend on the first: they keep out shorter forms and the range of values
that are no character. -/
theorem itemsFrom_three {v : Nat} (hlow : 0x800 ≤ v) (hhigh : v < 0x10000) (hv : v < 0xD800 ∨ 0xDFFF < v)
    (rest : Bytes) :
    itemsFrom none (UInt8.ofNat (v / 4096 % 16 + 0xE0) :: UInt8.ofNat (v / 64 % 64 + 0x80) ::
        UInt8.ofNat (v % 64 + 0x80) :: rest) = some (Char.ofNat v) :: itemsFrom none rest := by
  have hmid : v / 64 % 64 < 64 := by omega
  have hend : v % 64 < 64 := by omega
  rw [itemsFrom, lead_ofNat (by omega), if_neg (by omega), if_neg (by omega), if_neg (by omega)]
  by_cases hE0 : v / 4096 % 16 + 0xE0 = 0xE0
  · have hsum : (0 * 64 + v / 64 % 64) * 64 + v % 64 = v := by omega
    rw [if_pos hE0]
    refine (itemsFrom_more hmid ?_ ?_ 0 _ _).trans ((itemsFrom_last_free hend _ _).trans (by rw [hsum]))
    · show 0xA0 ≤ v / 64 % 64 + 0x80; omega
    · show v / 64 % 64 + 0x80 ≤ 0xBF; omega
  rw [if_neg hE0]
  by_cases hED : v / 4096 % 16 + 0xE0 = 0xED
  · have hsum : (0xD * 64 + v / 64 % 64) * 64 + v % 64 = v := by omega
    rw [if_pos hED]
    refine (itemsFrom_more hmid ?_ ?_ 0 _ _).trans ((itemsFrom_last_free hend _ _).trans (by rw [hsum]))
    · show 0x80 ≤ v / 64 % 64 + 0x80; omega
    · show v / 64 % 64 + 0x80 ≤ 0x9F; omega
  · have hsum : ((v / 4096 % 16 + 0xE0 - 0xE0) * 64 + v / 64 % 64) * 64 + v % 64 = v := by omega
    rw [if_neg hED, if_pos (by omega)]
    exact (itemsFrom_more_free hmid 0 _ _).trans ((itemsFrom_last_free hend _ _).trans (by rw [hsum]))

theorem itemsFrom_four {v : Nat} (hlow : 0x10000 ≤ v) (hhigh : v < 0x110000) (rest : Bytes) :
    itemsFrom none (UInt8.ofNat (v / 262144 % 8 + 0xF0) :: UInt8.ofNat (v / 4096 % 64 + 0x80) ::
        UInt8.ofNat (v / 64 % 64 + 0x80) :: UInt8.ofNat (v % 64 + 0x80) :: rest) =
      some (Char.ofNat v) :: itemsFrom none rest := by
  have hsecond : v / 4096 % 64 < 64 := by omega
  have hmid : v / 64 % 64 < 64 := by omega
  have hend : v % 64 < 64 := by omega
  rw [itemsFrom, lead_ofNat (by omega), if_neg (by omega), if_neg (by omega), if_neg (by omega), if_neg (by omega),
    if_neg (by omega), if_neg (by omega)]
  by_cases hF0 : v / 262144 % 8 + 0xF0 = 0xF0
  · have hsum : ((0 * 64 + v / 4096 % 64) * 64 + v / 64 % 64) * 64 + v % 64 = v := by omega
    rw [if_pos hF0]
    refine (itemsFrom_more hsecond ?_ ?_ 1 _ _).trans ((itemsFrom_more_free hmid 0 _ _).trans
      ((itemsFrom_last_free hend _ _).trans (by rw [hsum])))
    · show 0x90 ≤ v / 4096 % 64 + 0x80; omega
    · show v / 4096 % 64 + 0x80 ≤ 0xBF; omega
  rw [if_neg hF0]
  by_cases hF4 : v / 262144 % 8 + 0xF0 < 0xF4
  · have hsum : (((v / 262144 % 8 + 0xF0 - 0xF0) * 64 + v / 4096 % 64) * 64 + v / 64 % 64) * 64 + v % 64 = v := by
      omega
    rw [if_pos hF4]
    exact (itemsFrom_more_free hsecond 1 _ _).trans ((itemsFrom_more_free hmid 0 _ _).trans
      ((itemsFrom_last_free hend _ _).trans (by rw [hsum])))
  · have hsum : ((4 * 64 + v / 4096 % 64) * 64 + v / 64 % 64) * 64 + v % 64 = v := by omega
    rw [if_neg hF4, if_pos (by omega)]
    refine (itemsFrom_more hsecond ?_ ?_ 1 _ _).trans ((itemsFrom_more_free hmid 0 _ _).trans
      ((itemsFrom_last_free hend _ _).trans (by rw [hsum])))
    · show 0x80 ≤ v / 4096 % 64 + 0x80; omega
    · show v / 4096 % 64 + 0x80 ≤ 0x8F; omega

/-- **The bytes of a character are read as that character.** -/
theorem itemsFrom_encodeChar (c : Char) (rest : Bytes) :
    itemsFrom none (String.utf8EncodeChar c ++ rest) = some c :: itemsFrom none rest := by
  obtain ⟨v, hv⟩ : ∃ v, c.val.toNat = v := ⟨_, rfl⟩
  have hc : Char.ofNat v = c := by rw [← hv]; exact Char.ofNat_toNat c
  have hvalid : v < 0xD800 ∨ 0xDFFF < v ∧ v < 0x110000 := by rw [← hv]; exact c.valid
  unfold String.utf8EncodeChar
  simp only [hv]
  by_cases h1 : v ≤ 0x7F
  · rw [if_pos h1, List.singleton_append, itemsFrom, lead_ofNat (by omega), if_pos (by omega), hc]
  rw [if_neg h1]
  by_cases h2 : v ≤ 0x7FF
  · rw [if_pos h2]
    exact (itemsFrom_two (by omega) (by omega) rest).trans (by rw [hc])
  rw [if_neg h2]
  by_cases h3 : v ≤ 0xFFFF
  · rw [if_pos h3]
    exact (itemsFrom_three (by omega) (by omega) (by omega) rest).trans (by rw [hc])
  · rw [if_neg h3]
    exact (itemsFrom_four (by omega) (by omega) rest).trans (by rw [hc])

theorem items_encode (cs : List Char) : items (encode cs) = cs.map some := by
  induction cs with
  | nil => rfl
  | cons c cs ih =>
    have hcons : encode (c :: cs) = String.utf8EncodeChar c ++ encode cs := List.flatMap_cons
    rw [items, hcons, itemsFrom_encodeChar, List.map_cons]
    exact congrArg _ ih

theorem decode?_encode (cs : List Char) : decode? (encode cs) = some cs := by
  rw [decode?, items_encode]
  induction cs with
  | nil => rfl
  | cons c cs ih => rw [List.map_cons, List.mapM_cons, ih]; rfl

/-- **The bytes of a text are that text.** -/
theorem text?_bytesOf (s : String) : text? (bytesOf s) = some s := by
  rw [text?, bytesOf, decode?_encode, Option.map_some, String.ofList_toList]

end Utf8

end PseudoVm
