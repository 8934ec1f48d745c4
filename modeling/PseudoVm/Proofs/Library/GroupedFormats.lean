import PseudoVm.Library.Call
import PseudoVm.Proofs.Text.PrintableAscii
/-!
# Library.GroupedFormats: numbers with their thousands set apart

Digits are cut into a head of one to three and groups of three, each behind a comma.  `thousands?` makes the cuts one
after the other and gives up at one that is not inside the text; the head is as long as leaves a multiple of three
behind it, so no cut fails (`groups?_eq`, `thousands?_eq`).  The result is the only text of its shape with these digits
(`SetApart.eq_thousands`), so the formats built on it lose nothing.
-/
namespace PseudoVm

namespace Grouped

/-! ## The cuts -/

/-- A text parted behind its first `n` bytes; none if it has fewer, or if a character lies across the place. -/
def parted? : Nat → List Char → Option (List Char × List Char)
  | 0, cs => some ([], cs)
  | _ + 1, [] => none
  | n + 1, c :: cs =>
    if c.utf8Size ≤ n + 1 then (parted? (n + 1 - c.utf8Size) cs).map fun (front, back) => (c :: front, back) else none

theorem length_encode_cons (c : Char) (cs : List Char) :
    (Utf8.encode (c :: cs)).length = c.utf8Size + (Utf8.encode cs).length := by
  rw [Utf8.encode, List.flatMap_cons, List.length_append, String.length_utf8EncodeChar]
  rfl

/-- **A cut is inside a text if the text has two parts there,** the first of which takes up as many bytes. -/
theorem parted?_eq_some_iff {n : Nat} {cs front back : List Char} :
    parted? n cs = some (front, back) ↔ cs = front ++ back ∧ (Utf8.encode front).length = n := by
  fun_induction parted? n cs generalizing front with
  | case1 cs =>
    constructor
    · rintro ⟨⟩
      exact ⟨rfl, rfl⟩
    · rintro ⟨rfl, hnone⟩
      cases front with
      | nil => rfl
      | cons c front =>
        have hpos := Char.utf8Size_pos c
        rw [length_encode_cons] at hnone
        omega
  | case2 n =>
    constructor
    · rintro ⟨⟩
    · rintro ⟨hnil, hn⟩
      obtain ⟨rfl, -⟩ := List.append_eq_nil_iff.1 hnil.symm
      cases hn
  | case3 n c cs hle ih =>
    constructor
    · intro h
      obtain ⟨⟨front, back⟩, hcut, heq⟩ := Option.map_eq_some_iff.1 h
      cases heq
      obtain ⟨rfl, hn⟩ := ih.1 hcut
      exact ⟨rfl, by rw [length_encode_cons]; omega⟩
    · rintro ⟨hcs, hn⟩
      cases front with
      | nil => cases hn
      | cons d front =>
        obtain ⟨rfl, rfl⟩ := List.cons.inj hcs
        rw [length_encode_cons] at hn
        rw [ih.2 ⟨rfl, by omega⟩]
        rfl
  | case4 n c cs hgt =>
    constructor
    · rintro ⟨⟩
    · rintro ⟨hcs, hn⟩
      cases front with
      | nil => cases hn
      | cons d front =>
        obtain ⟨rfl, rfl⟩ := List.cons.inj hcs
        rw [length_encode_cons] at hn
        omega

/-- Groups of three, cut off one after the other until nothing is left; none if a cut is not inside the text. -/
def groups? (rest : List Char) : Option (List Char) :=
  if rest.isEmpty then some []
  else
    match _h : parted? 3 rest with
    | none => none
    | some (group, tail) => (groups? tail).map fun more => ',' :: group ++ more
termination_by rest.length
decreasing_by
  obtain ⟨rfl, hthree⟩ := parted?_eq_some_iff.1 _h
  cases group with
  | nil => cases hthree
  | cons c group =>
    rw [List.length_append, List.length_cons]
    omega

/-- Digits with a comma between every group of three, cut by cut; none if a cut is not inside the text. -/
def thousands? (digits : List Char) : Option (List Char) :=
  let count := (Utf8.encode digits).length
  (parted? (min (lead count) count) digits).bind fun (head, rest) => (groups? rest).map (head ++ ·)

theorem length_encode_digits {cs : List Char} (h : ∀ c ∈ cs, c.isDigit) : (Utf8.encode cs).length = cs.length := by
  rw [Printable.encode fun c hc => .of_isDigit (h c hc), List.length_map]

theorem groups?_of_parted? {rest group tail : List Char} (hne : rest ≠ []) (h : parted? 3 rest = some (group, tail)) :
    groups? rest = (groups? tail).map fun more => ',' :: group ++ more := by
  have hsome : rest.isEmpty = false := by simpa using hne
  rw [groups?, hsome, if_neg Bool.false_ne_true]
  split
  · next hnone =>
    rw [h] at hnone
    cases hnone
  · next hcut =>
    rw [h] at hcut
    cases hcut
    rfl

theorem length_group_mod (a b c : Char) (rest : List Char) : (a :: b :: c :: rest).length % 3 = rest.length % 3 :=
  Nat.add_mod_right rest.length 3

theorem eq_nil_of_short {rest : List Char} (hshort : ∀ a b c more, rest = a :: b :: c :: more → False)
    (hthree : rest.length % 3 = 0) : rest = [] := by
  match rest with
  | [] => rfl
  | [_] | [_, _] => cases hthree
  | a :: b :: c :: more => exact absurd rfl (hshort a b c more)

/-- **As long as a multiple of three is left, no cut fails.** -/
theorem groups?_eq {rest : List Char} (hdigits : ∀ c ∈ rest, c.isDigit) (hthree : rest.length % 3 = 0) :
    groups? rest = some (groups rest) := by
  fun_induction groups rest with
  | case1 a b c rest ih =>
    rw [length_group_mod] at hthree
    have hgroup : ∀ d ∈ [a, b, c], d.isDigit := fun d hd => hdigits d (List.mem_append_left rest hd)
    have hcut : parted? 3 (a :: b :: c :: rest) = some ([a, b, c], rest) :=
      parted?_eq_some_iff.2 ⟨rfl, length_encode_digits hgroup⟩
    rw [groups?_of_parted? (List.cons_ne_nil a _) hcut, ih (fun d hd => hdigits d (by simp [hd])) hthree]
    rfl
  | case2 rest hshort =>
    obtain rfl := eq_nil_of_short hshort hthree
    rw [groups?]
    rfl

example : groups? ['1', '2', '3', '4'] = none := by cbv

theorem lead_spec (count : Nat) : 1 ≤ lead count ∧ lead count ≤ 3 ∧ (0 < count → lead count ≤ count) ∧
    (count - lead count) % 3 = 0 := by
  unfold lead
  split <;> omega

section Digits

variable {digits : List Char} (hdigits : ∀ c ∈ digits, c.isDigit)
include hdigits

theorem isDigit_take (n : Nat) : ∀ c ∈ digits.take n, c.isDigit := fun c hc => hdigits c (List.mem_of_mem_take hc)

theorem isDigit_drop (n : Nat) : ∀ c ∈ digits.drop n, c.isDigit := fun c hc => hdigits c (List.mem_of_mem_drop hc)

/-- **Thousands are set apart without a cut outside the text.** -/
theorem thousands?_eq : thousands? digits = some (thousands digits) := by
  -- figures take up one byte each, so the place counted in bytes is that counted in characters
  have hcut : parted? (min (lead digits.length) digits.length) digits =
      some (digits.take (lead digits.length), digits.drop (lead digits.length)) := by
    refine parted?_eq_some_iff.2 ⟨(List.take_append_drop _ _).symm, ?_⟩
    rw [length_encode_digits (isDigit_take hdigits _), List.length_take]
  have hthree : (digits.drop (lead digits.length)).length % 3 = 0 := by
    rw [List.length_drop]
    exact (lead_spec _).2.2.2
  unfold thousands?
  dsimp only
  rw [length_encode_digits hdigits, hcut, Option.bind_some, groups?_eq (isDigit_drop hdigits _) hthree]
  rfl

end Digits

/-! ## The shape -/

/-- Groups of a comma and three digits. -/
inductive Triples : List Char → Prop
  | nil : Triples []
  | cons {a b c : Char} {rest : List Char} (hgroup : ∀ d ∈ [a, b, c], d.isDigit) (hrest : Triples rest) :
      Triples (',' :: a :: b :: c :: rest)

/-- One to three digits, and groups of a comma and three digits behind them. -/
inductive SetApart : List Char → Prop
  | intro {head tail : List Char} (hsome : 1 ≤ head.length) (hfew : head.length ≤ 3) (hhead : ∀ c ∈ head, c.isDigit)
      (htail : Triples tail) : SetApart (head ++ tail)

/-- A text with its commas deleted. -/
def plain (cs : List Char) : List Char := cs.filter (· ≠ ',')

theorem plain_append (cs ds : List Char) : plain (cs ++ ds) = plain cs ++ plain ds := List.filter_append cs ds

theorem plain_digits {cs : List Char} (h : ∀ c ∈ cs, c.isDigit) : plain cs = cs := by
  refine List.filter_eq_self.2 fun c hc => decide_eq_true ?_
  rintro rfl
  exact absurd (h _ hc) (by decide)

theorem plain_group {a b c : Char} (h : ∀ d ∈ [a, b, c], d.isDigit) (rest : List Char) :
    plain (',' :: a :: b :: c :: rest) = a :: b :: c :: plain rest := by
  show plain ([a, b, c] ++ rest) = _
  rw [plain_append, plain_digits h]
  rfl

theorem plain_groups {rest : List Char} (hdigits : ∀ c ∈ rest, c.isDigit) : plain (groups rest) = rest := by
  fun_induction groups rest with
  | case1 a b c rest ih =>
    rw [plain_group fun d hd => hdigits d (List.mem_append_left rest hd), ih fun d hd => hdigits d (by simp [hd])]
  | case2 rest => exact plain_digits hdigits

theorem triples_groups {rest : List Char} (hdigits : ∀ c ∈ rest, c.isDigit) (hthree : rest.length % 3 = 0) :
    Triples (groups rest) := by
  fun_induction groups rest with
  | case1 a b c rest ih =>
    rw [length_group_mod] at hthree
    exact .cons (fun d hd => hdigits d (List.mem_append_left rest hd)) (ih (fun d hd => hdigits d (by simp [hd])) hthree)
  | case2 rest hshort =>
    obtain rfl := eq_nil_of_short hshort hthree
    exact .nil

theorem Triples.eq_groups {tail : List Char} (h : Triples tail) :
    (plain tail).length % 3 = 0 ∧ groups (plain tail) = tail := by
  induction h with
  | nil => exact ⟨rfl, rfl⟩
  | cons hgroup hrest ih =>
    rw [plain_group hgroup, length_group_mod, groups, ih.2]
    exact ⟨ih.1, rfl⟩

theorem plain_thousands {digits : List Char} (hdigits : ∀ c ∈ digits, c.isDigit) : plain (thousands digits) = digits := by
  rw [thousands, plain_append, plain_digits (isDigit_take hdigits _), plain_groups (isDigit_drop hdigits _),
    List.take_append_drop]

theorem setApart_thousands {digits : List Char} (hne : digits ≠ []) (hdigits : ∀ c ∈ digits, c.isDigit) :
    SetApart (thousands digits) := by
  obtain ⟨hsome, hfew, hle, hthree⟩ := lead_spec digits.length
  have hhead : (digits.take (lead digits.length)).length = lead digits.length :=
    List.length_take_of_le (hle (List.length_pos_iff.2 hne))
  refine .intro (by omega) (by omega) (isDigit_take hdigits _) (triples_groups (isDigit_drop hdigits _) ?_)
  rwa [List.length_drop]

/-- **Of the texts of this shape, one has the given digits.** -/
theorem SetApart.eq_thousands {cs : List Char} (h : SetApart cs) : cs = thousands (plain cs) := by
  cases h with
  | @intro head tail hsome hfew hhead htail =>
    obtain ⟨hthree, htext⟩ := htail.eq_groups
    rw [plain_append, plain_digits hhead]
    -- a multiple of three stands behind the head, so the head is what is left over, or three
    have hlead : lead (head ++ plain tail).length = head.length := by
      rw [List.length_append, lead]
      split <;> omega
    rw [thousands, hlead, List.take_left, List.drop_left, htext]

/-! ## The formats -/

theorem isDigit_toDigits (n : Nat) : ∀ c ∈ Nat.toDigits 10 n, c.isDigit := fun _ hc =>
  Nat.isDigit_of_mem_toDigits (by decide) (by decide) hc

theorem plain_whole (n : Int64) : plain (whole n.toInt).toList = (Numeral.intText n).toList := by
  have hplain : ∀ m, plain (thousands (Nat.toDigits 10 m)) = Nat.toDigits 10 m := fun m =>
    plain_thousands (isDigit_toDigits m)
  rw [whole, String.toList_append, String.toList_ofList, plain_append, hplain]
  rcases Numeral.toList_intText n with ⟨hsign, htext⟩ | ⟨hsign, htext⟩
  · have habs : n.toInt.natAbs = n.toInt.toNat := by omega
    rw [htext, if_neg (by omega), habs]
    rfl
  · have habs : n.toInt.natAbs = (-n.toInt).toNat := by omega
    rw [htext, if_pos hsign, habs]
    rfl

theorem toList_hundredths (mark : String) (n : Int) : (hundredths mark n).toList =
    (if n < 0 then ['-'] else []) ++ mark.toList ++ thousands (Nat.toDigits 10 (n.natAbs / 100)) ++
      '.' :: (Numeral.padded 2 (n.natAbs % 100)).toList := by
  have hsign : (if n < 0 then "-" else "").toList = if n < 0 then ['-'] else [] := by split <;> rfl
  simp only [hundredths, String.toList_append, String.toList_ofList, hsign, List.append_assoc]
  rfl

theorem call_integerFormat (n : Int64) (w : World) :
    Library.call .integerFormat [.int n] w = .ok (some (.text (whole n.toInt))) w := rfl

/-- **Nothing is lost when thousands are set apart.**  No cut is outside the digits; deleting the commas gives the digits
back, and what they were put into is one to three digits with groups of a comma and three digits behind them, the only
such text with these digits.  So `integerFormat` without its commas is the decimal text of the integer; and an amount of
hundredths is its sign, the mark, its whole part so written, a point and two digits. -/
theorem grouped_formats_lose_nothing :
    (∀ digits : List Char, digits ≠ [] → (∀ c ∈ digits, c.isDigit) →
      thousands? digits = some (thousands digits) ∧ plain (thousands digits) = digits ∧
      SetApart (thousands digits) ∧ ∀ cs, SetApart cs → plain cs = digits → cs = thousands digits) ∧
    (∀ (n : Int64) (w : World), ∃ text,
      Library.call .integerFormat [.int n] w = .ok (some (.text text)) w ∧
      plain text.toList = (Numeral.intText n).toList) ∧
    ∀ (h : Int) (mark : String), ∃ amount places,
      (hundredths mark h).toList = (if h < 0 then ['-'] else []) ++ mark.toList ++ amount ++ '.' :: places ∧
      SetApart amount ∧ plain amount = (toString (h.natAbs / 100)).toList ∧
      places.length = 2 ∧ Numeral.Spells 10 places (h.natAbs % 100) := by
  refine ⟨fun digits hne hdigits => ⟨thousands?_eq hdigits, plain_thousands hdigits, setApart_thousands hne hdigits, ?_⟩,
    fun n w => ⟨_, call_integerFormat n w, plain_whole n⟩, fun h mark => ?_⟩
  · rintro cs hcs rfl
    exact hcs.eq_thousands
  · have hplaces : h.natAbs % 100 < 10 ^ 2 := Nat.mod_lt _ (by decide)
    have hdigits := isDigit_toDigits (h.natAbs / 100)
    refine ⟨_, _, toList_hundredths mark h, setApart_thousands Nat.toDigits_ne_nil hdigits, ?_,
      Numeral.spells_padded (by decide) hplaces⟩
    rw [plain_thousands hdigits]
    exact Nat.toList_repr.symm

/-- The least integer of 64 bits: nineteen digits, the first of them alone before a comma. -/
theorem grouped_formats_lose_nothing_least : "9223372036854775808".toList ≠ [] ∧
    (∀ c ∈ "9223372036854775808".toList, c.isDigit) ∧
    thousands? "9223372036854775808".toList = some "9,223,372,036,854,775,808".toList ∧
    SetApart "9,223,372,036,854,775,808".toList ∧
    ∃ (w : World) (text : String),
      Library.call .integerFormat [.int Int64.minValue] w = .ok (some (.text text)) w ∧
      plain text.toList = "-9223372036854775808".toList := by
  have hne : "9223372036854775808".toList ≠ [] := by decide
  have hdigits : ∀ c ∈ "9223372036854775808".toList, c.isDigit := List.all_eq_true.1 (by decide)
  have htext : thousands "9223372036854775808".toList = "9,223,372,036,854,775,808".toList := by decide
  have hplain : (Numeral.intText Int64.minValue).toList = "-9223372036854775808".toList := by decide
  obtain ⟨hgroup, hinteger, -⟩ := grouped_formats_lose_nothing
  obtain ⟨hcuts, -, hshape, -⟩ := hgroup _ hne hdigits
  obtain ⟨text, hcall, hback⟩ := hinteger Int64.minValue { console := { source := .script [] }, random := ⟨[], 0⟩ }
  rw [htext] at hcuts hshape
  exact ⟨hne, hdigits, hcuts, hshape, _, text, hcall, hback.trans hplain⟩

end Grouped

end PseudoVm
