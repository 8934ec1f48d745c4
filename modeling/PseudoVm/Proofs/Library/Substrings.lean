import Mathlib.Data.List.Infix
import PseudoVm.Library.Call
/-!
# Library.Substrings: positions in a string

A slice is what lies between two positions (`slice?_eq_some_iff`): the last position counts as inside, so the empty
string ends before it begins.  Searching finds exactly what some slice is (`occursIn_iff_isInfix`).
-/
namespace PseudoVm

namespace Library

/-- A string has its bytes in one block of storage, behind two counts of eight bytes each. -/
def Storable (s : Bytes) : Prop := 16 + s.length ≤ Bound.block

theorem occursIn_iff_isInfix {needle : Bytes} : ∀ {s : Bytes}, occursIn needle s = true ↔ needle <:+: s
  | [] => by simp [occursIn]
  | b :: s => by
    rw [occursIn, Bool.or_eq_true, List.isPrefixOf_iff_prefix, occursIn_iff_isInfix, List.infix_cons_iff]

theorem slice?_eq {s : Bytes} (hs : Storable s) (first last : Int64) :
    slice? s first last =
      if 0 ≤ first.toInt ∧ first.toInt ≤ last.toInt + 1 ∧ last.toInt + 1 ≤ s.length then
        some ((s.drop first.toInt.toNat).take (last.toInt + 1 - first.toInt).toNat)
      else none := by
  have hroom : (s.length : Int) < 2 ^ 63 - 1 := by
    unfold Storable Bound.block at hs
    omega
  have hlast : last.toInt < 2 ^ 63 := Int64.toInt_lt last
  have hend : (Bound.int : Int) = 2 ^ 63 := rfl
  unfold slice?
  rw [hend]
  dsimp only
  by_cases hin : 0 ≤ first.toInt ∧ first.toInt ≤ last.toInt + 1 ∧ last.toInt + 1 ≤ s.length
  · have hstop : min (last.toInt + 1) (2 ^ 63 - 1) = last.toInt + 1 := by omega
    rw [hstop, if_neg (by omega), if_pos hin]
  · rw [if_pos (by omega), if_neg hin]

/-- **A slice is what lies between its two positions.** -/
theorem slice?_eq_some_iff {s : Bytes} (hs : Storable s) {first last : Int64} {part : Bytes} :
    slice? s first last = some part ↔
      ∃ front back, s = front ++ part ++ back ∧ first.toInt = front.length ∧
        last.toInt + 1 = front.length + part.length := by
  rw [slice?_eq hs]
  constructor
  · intro h
    split at h
    · next hin =>
      obtain ⟨hfirst, hle, hend⟩ := hin
      obtain rfl := Option.some.inj h
      refine ⟨s.take first.toInt.toNat, (s.drop first.toInt.toNat).drop (last.toInt + 1 - first.toInt).toNat, ?_, ?_, ?_⟩
      · rw [List.append_assoc, List.take_append_drop, List.take_append_drop]
      · rw [List.length_take]
        omega
      · rw [List.length_take, List.length_take, List.length_drop]
        omega
    · cases h
  · rintro ⟨front, back, rfl, hfirst, hlast⟩
    have hin : 0 ≤ first.toInt ∧ first.toInt ≤ last.toInt + 1 ∧
        last.toInt + 1 ≤ ((front ++ part ++ back).length : Nat) := by
      simp only [List.length_append]
      omega
    have hdrop : first.toInt.toNat = front.length := by omega
    have htake : (last.toInt + 1 - first.toInt).toNat = part.length := by omega
    rw [if_pos hin, hdrop, htake, List.append_assoc, List.drop_left, List.take_left]

theorem slice?_bytes {s : Bytes} (hs : Storable s) {first last : Int64} {part : Bytes}
    (h : slice? s first last = some part) :
    (part.length : Int) = last.toInt - first.toInt + 1 ∧
      ∀ i < part.length, part[i]? = s[first.toInt.toNat + i]? := by
  obtain ⟨front, back, rfl, hfirst, hlast⟩ := (slice?_eq_some_iff hs).1 h
  have hdrop : first.toInt.toNat = front.length := by omega
  refine ⟨by omega, fun i hi => ?_⟩
  rw [hdrop, List.append_assoc, List.getElem?_append_right (Nat.le_add_right _ _), Nat.add_sub_cancel_left,
    List.getElem?_append_left hi]

theorem slice?_of_append (front part back : Bytes) (hs : Storable (front ++ part ++ back)) :
    slice? (front ++ part ++ back) (Int64.ofNat front.length) (Int64.ofInt (front.length + part.length - 1)) =
      some part := by
  have hroom : (front.length + part.length + back.length : Int) < 2 ^ 63 := by
    unfold Storable Bound.block at hs
    simp only [List.length_append] at hs
    omega
  refine (slice?_eq_some_iff hs).2 ⟨front, back, rfl, Int64.toInt_ofNat_of_lt (by omega), ?_⟩
  rw [Int64.toInt_ofInt_of_le (by omega) (by omega), Int.sub_add_cancel]

/-- **Searching finds what some slice is.** -/
theorem occursIn_iff_slice {s : Bytes} (hs : Storable s) {needle : Bytes} :
    occursIn needle s = true ↔ ∃ first last, slice? s first last = some needle := by
  rw [occursIn_iff_isInfix]
  constructor
  · rintro ⟨front, back, rfl⟩
    exact ⟨_, _, slice?_of_append front needle back hs⟩
  · rintro ⟨first, last, h⟩
    obtain ⟨front, back, rfl, -, -⟩ := (slice?_eq_some_iff hs).1 h
    exact ⟨front, back, rfl⟩

/-! ## The functions -/

theorem call_substring (s : Bytes) (first last : Int64) (w : World) :
    call .substring [.str s, .int first, .int last] w =
      match slice? s first last with
      | some part => .ok (some (.str part)) w
      | none => .error (.fault (rejected "substring" ("range [" ++ Numeral.intText first ++ ", " ++
          Numeral.intText last ++ "] out of bounds for length " ++ toString s.length))) w := by
  show computed (substring [.str s, .int first, .int last]) w = _
  simp only [substring, three, Value.asStr, Value.asInt, bind, Except.bind]
  cases slice? s first last <;> rfl

theorem call_substring_eq_ok_iff {s part : Bytes} {first last : Int64} {w : World} :
    call .substring [.str s, .int first, .int last] w = .ok (some (.str part)) w ↔
      slice? s first last = some part := by
  rw [call_substring]
  cases slice? s first last <;> simp

/-- **Searching, cutting and joining agree about positions.**  `contains` says whether some range of `substring` is what
is searched for; `substring` gives a range exactly if it lies inside the string, counted in integers of any size, and
gives its bytes; and the two parts of a joined string are cut out of it by their lengths. -/
theorem contains_substring_append_agree {s : Bytes} (hs : Storable s) (w : World) :
    (∃ l, call .length [.str s] w = .ok (some (.int l)) w ∧ l.toInt = s.length) ∧
    (∀ needle, ∃ found, call .contains [.str s, .str needle] w = .ok (some (.bool found)) w ∧
      (found = true ↔
        ∃ first last, call .substring [.str s, .int first, .int last] w = .ok (some (.str needle)) w)) ∧
    (∀ first last : Int64,
      if 0 ≤ first.toInt ∧ first.toInt ≤ last.toInt + 1 ∧ last.toInt + 1 ≤ s.length then
        ∃ part, call .substring [.str s, .int first, .int last] w = .ok (some (.str part)) w ∧
          (part.length : Int) = last.toInt - first.toInt + 1 ∧
          ∀ i < part.length, part[i]? = s[first.toInt.toNat + i]?
      else ∃ message, call .substring [.str s, .int first, .int last] w =
        .error (.fault (.libArgument "substring" message)) w) ∧
    ∀ x y, s = x ++ y → call .append [.str x, .str y] w = .ok (some (.str s)) w ∧
      ∃ m n, call .length [.str x] w = .ok (some (.int m)) w ∧ call .length [.str y] w = .ok (some (.int n)) w ∧
        call .substring [.str s, .int m, .int (m + n - 1)] w = .ok (some (.str y)) w ∧
        call .substring [.str s, .int 0, .int (m - 1)] w = .ok (some (.str x)) w := by
  refine ⟨⟨Int64.ofNat s.length, rfl, ?_⟩, fun needle => ⟨occursIn needle s, rfl, ?_⟩, fun first last => ?_, ?_⟩
  · apply Int64.toInt_ofNat_of_lt
    unfold Storable Bound.block at hs
    omega
  · simp only [call_substring_eq_ok_iff]
    exact occursIn_iff_slice hs
  · have hslice := slice?_eq hs first last
    split
    · next hin =>
      rw [if_pos hin] at hslice
      exact ⟨_, call_substring_eq_ok_iff.2 hslice, slice?_bytes hs hslice⟩
    · next hout =>
      rw [if_neg hout] at hslice
      rw [call_substring, hslice]
      exact ⟨_, rfl⟩
  · rintro x y rfl
    refine ⟨rfl, Int64.ofNat x.length, Int64.ofNat y.length, rfl, rfl, ?_, ?_⟩
    · have hlast : Int64.ofNat x.length + Int64.ofNat y.length - 1 = Int64.ofInt (x.length + y.length - 1) := by
        rw [Int64.ofInt_sub, Int64.ofInt_add, Int64.ofInt_eq_ofNat, Int64.ofInt_eq_ofNat]
        rfl
      have hright := slice?_of_append x y [] (by rwa [List.append_nil])
      rw [List.append_nil] at hright
      rw [call_substring_eq_ok_iff, hlast]
      exact hright
    · have hlast : Int64.ofNat x.length - 1 = Int64.ofInt (([] : Bytes).length + x.length - 1) := by
        rw [Int64.ofInt_sub, Int64.ofInt_add, Int64.ofInt_eq_ofNat, Int64.ofInt_eq_ofNat]
        simp
      rw [call_substring_eq_ok_iff, hlast]
      exact slice?_of_append [] x y hs

/-- The end of a range may be the largest integer; one more is then still outside the string. -/
theorem contains_substring_append_agree_abcd : ∃ w : World, Storable [0x61, 0x62, 0x63, 0x64] ∧
    (∃ first last, call .substring [.str [0x61, 0x62, 0x63, 0x64], .int first, .int last] w =
      .ok (some (.str [0x62, 0x63])) w) ∧
    ∃ message, call .substring [.str [0x61, 0x62, 0x63, 0x64], .int 1, .int Int64.maxValue] w =
      .error (.fault (.libArgument "substring" message)) w := by
  have hs : Storable [0x61, 0x62, 0x63, 0x64] := by simp [Storable, Bound.block]
  refine ⟨{ console := { source := .script [] }, random := ⟨[], 0⟩ }, hs, ?_⟩
  obtain ⟨-, hcontains, hsubstring, -⟩ := contains_substring_append_agree hs _
  constructor
  · obtain ⟨found, hcall, hfound⟩ := hcontains [0x62, 0x63]
    cases hcall
    exact hfound.1 rfl
  · have hlong := hsubstring 1 Int64.maxValue
    rwa [if_neg (by decide)] at hlong

end Library

end PseudoVm
