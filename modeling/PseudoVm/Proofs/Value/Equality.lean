import PseudoVm.Proofs.Value.Nesting
/-!
# Value.Equality: what a comparison of values answers, and when it waits for ever

Two values are compared place by place, in the order of their paths (`Heap.Before`), and the first place that decides is
the answer (`Heap.Decides`, `Heap.equalFrom_decides`): a place where the two differ, or one where an array stands that is
locked already.  Arrays on the way to a place are locked on both sides, and so a comparison can wait although no array
contains itself: it comes to an array on one side that it is inside of on the other (`Heap.Crosses`,
`Heap.equality_waits`).  Where that happens the values are not alike, so that values that are alike are always found to
be equal (`Heap.equality_answers_iff`).
-/
namespace PseudoVm

namespace Heap

/-- Two values that look the same without a look inside: equal leaves of one kind, or arrays of as many items. -/
def Matches (heap : Heap) : Value → Value → Prop
  | .int a, .int b => a = b
  | .real a, .real b => (a == b) = true
  | .bool a, .bool b => a = b
  | .char a, .char b => a = b
  | .str a, .str b => a = b
  | .array a, .array b => (heap.inside (.array a)).length = (heap.inside (.array b)).length
  | .object _ a, .object _ b => a = b
  | .file a, .file b => a = b
  | .ref a, .ref b => a = b
  | _, _ => False

/-- **Two values of the same shape with equal leaves**: whatever a path leads to in both matches.  Arrays that match have
as many items, so the same paths lead somewhere (`Alike.isSome_item?`). -/
def Alike (heap : Heap) (a b : Value) : Prop :=
  ∀ path x y, heap.follow? a path = some x → heap.follow? b path = some y → heap.Matches x y

/-- No path leads to a number that is not equal to itself. -/
def NoNaN (heap : Heap) (v : Value) : Prop := ∀ path x, heap.follow? v path = some (.real x) → (x == x) = true

/-- A path is visited before another one: from the first item of an array to the last, and an array before its items. -/
def Before : List Nat → List Nat → Prop
  | _, [] => False
  | [], _ :: _ => True
  | i :: p, j :: q => i < j ∨ i = j ∧ Before p q

/-- No array on the way is the same on both sides; a comparison does not look into one that is. -/
def Separate (heap : Heap) (a b : Value) (path : List Nat) : Prop :=
  ∀ p q, path = p ++ q → q ≠ [] → heap.follow? a p ≠ heap.follow? b p

/-- A path on which the two values differ for the first time. -/
def Differs (heap : Heap) (a b : Value) (path : List Nat) : Prop :=
  heap.Separate a b path ∧ ∃ x y, heap.follow? a path = some x ∧ heap.follow? b path = some y ∧ ¬ heap.Matches x y

/-- An array is locked when a comparison comes to a path: it was before, or it stands on the way on one of the sides. -/
def Locked (heap : Heap) (inside : List ArrayId) (a b : Value) (path : List Nat) (id : ArrayId) : Prop :=
  id ∈ inside ∨ ∃ p q, path = p ++ q ∧ q ≠ [] ∧ (heap.Leads a p id ∨ heap.Leads b p id)

/-- A path on which a comparison waits: it leads to two arrays one of which is locked. -/
def Waits (heap : Heap) (inside : List ArrayId) (a b : Value) (path : List Nat) : Prop :=
  heap.Separate a b path ∧ ∃ id id', id ≠ id' ∧ heap.Leads a path id ∧ heap.Leads b path id' ∧
    (heap.Locked inside a b path id ∨ heap.Locked inside a b path id')

/-- **A path leads to arrays in both values, and one of them stands on the way to the other**: one value has at this
depth an array that the other one has further up. -/
def Crosses (heap : Heap) (a b : Value) (path : List Nat) : Prop :=
  ∃ id id', heap.Leads a path id ∧ heap.Leads b path id' ∧
    ∃ p q, path = p ++ q ∧ q ≠ [] ∧ (heap.Leads a p id' ∨ heap.Leads b p id)

/-- **What the first place that decides makes of a comparison**: that it waits, that the values are not equal, or, if
there is no such place, that they are. -/
def Decides (waits differs : List Nat → Prop) : Option Bool → Prop
  | none => ∃ path, waits path ∧ ∀ earlier, Before earlier path → ¬ differs earlier
  | some false => ∃ path, differs path ∧ ∀ earlier, ¬ Before path earlier → ¬ waits earlier
  | some true => ∀ path, ¬ waits path ∧ ¬ differs path

variable {heap : Heap} {a b u u' v : Value} {inside : List ArrayId} {id id' : ArrayId} {path : List Nat} {index : Nat}

/-! ## Answers -/

theorem not_before_nil : ¬ Before path [] := by
  cases path <;> exact id

theorem Decides.eq_none_iff {waits differs : List Nat → Prop} {answer : Option Bool}
    (h : Decides waits differs answer) :
    answer = none ↔ ∃ path, waits path ∧ ∀ earlier, Before earlier path → ¬ differs earlier := by
  match answer, h with
  | none, h => exact iff_of_true rfl h
  | some true, h => exact iff_of_false nofun fun ⟨path, hw, _⟩ => (h path).1 hw
  | some false, ⟨path, hd, hfirst⟩ =>
    refine iff_of_false nofun fun ⟨path', hw, hfirst'⟩ => ?_
    exact hfirst path' (fun hbefore => hfirst' path hbefore hd) hw

theorem Decides.eq_true_iff {waits differs : List Nat → Prop} {answer : Option Bool}
    (h : Decides waits differs answer) : answer = some true ↔ ∀ path, ¬ waits path ∧ ¬ differs path := by
  match answer, h with
  | none, ⟨path, hw, _⟩ => exact iff_of_false nofun fun h => (h path).1 hw
  | some true, h => exact iff_of_true rfl h
  | some false, ⟨path, hd, _⟩ => exact iff_of_false nofun fun h => (h path).2 hd

theorem pairwise?_first (same? : Value → Value → Option Bool) : ∀ {as bs : List Value}, as.length = bs.length →
    (pairwise? same? as bs = some true ∧
      ∀ (i : Nat) (x y : Value), as[i]? = some x → bs[i]? = some y → same? x y = some true) ∨
    ∃ (i : Nat) (x y : Value), as[i]? = some x ∧ bs[i]? = some y ∧ same? x y ≠ some true ∧
      pairwise? same? as bs = same? x y ∧
      ∀ (j : Nat) (x' y' : Value), j < i → as[j]? = some x' → bs[j]? = some y' → same? x' y' = some true
  | [], [], _ => .inl ⟨rfl, nofun⟩
  | x :: as, y :: bs, hlen => by
    by_cases hxy : same? x y = some true
    · have hcons : pairwise? same? (x :: as) (y :: bs) = pairwise? same? as bs := by rw [pairwise?, hxy]
      rw [hcons]
      obtain ⟨heq, hall⟩ | ⟨i, x', y', hx, hy, hne, heq, hbefore⟩ :=
        pairwise?_first same? (Nat.succ.inj hlen)
      · refine .inl ⟨heq, fun i x' y' hx hy => ?_⟩
        cases i with
        | zero =>
          cases hx
          cases hy
          exact hxy
        | succ i => exact hall i x' y' hx hy
      · refine .inr ⟨i + 1, x', y', hx, hy, hne, heq, fun j x'' y'' hj hx'' hy'' => ?_⟩
        cases j with
        | zero =>
          cases hx''
          cases hy''
          exact hxy
        | succ j => exact hbefore j x'' y'' (Nat.lt_of_succ_lt_succ hj) hx'' hy''
    · refine .inr ⟨0, x, y, rfl, rfl, hxy, ?_, fun j _ _ (hj : j < 0) => absurd hj (Nat.not_lt_zero j)⟩
      rw [pairwise?]
      split
      · contradiction
      · rfl

/-! ## Places one hop further -/

theorem follow?_cons (hu : heap.item? v index = some u) (path : List Nat) :
    heap.follow? v (index :: path) = heap.follow? u path := by
  rw [follow?, hu, Option.bind_some]

theorem exists_of_follow?_cons {x : Value} (h : heap.follow? v (index :: path) = some x) :
    ∃ u, heap.item? v index = some u ∧ heap.follow? u path = some x :=
  Option.bind_eq_some_iff.1 h

theorem leads_item (hu : heap.item? v index = some u) : heap.Leads v (index :: path) id ↔ heap.Leads u path id := by
  rw [Leads, Leads, follow?_cons hu]

theorem separate_nil : heap.Separate a b [] := fun _ _ hpath hq => absurd (List.nil_eq_append_iff.1 hpath).2 hq

theorem separate_item (hu : heap.item? a index = some u) (hu' : heap.item? b index = some u') :
    heap.Separate a b (index :: path) ↔ a ≠ b ∧ heap.Separate u u' path := by
  constructor
  · refine fun h => ⟨fun hab => ?_, fun p q hpath hq => ?_⟩
    · exact h [] (index :: path) rfl (List.cons_ne_nil _ _) (congrArg some hab)
    · have hne := h (index :: p) q (congrArg _ hpath) hq
      rwa [follow?_cons hu, follow?_cons hu'] at hne
  · rintro ⟨hne, h⟩ p q hpath hq
    cases p with
    | nil => exact fun heq => hne (Option.some.inj heq)
    | cons i p =>
      obtain ⟨rfl, hrest⟩ := List.cons.inj hpath
      rw [follow?_cons hu, follow?_cons hu']
      exact h p q hrest hq

theorem differs_item (hu : heap.item? a index = some u) (hu' : heap.item? b index = some u') :
    heap.Differs a b (index :: path) ↔ a ≠ b ∧ heap.Differs u u' path := by
  unfold Differs
  rw [separate_item hu hu', follow?_cons hu, follow?_cons hu', and_assoc]

theorem exists_items_of_differs (h : heap.Differs a b (index :: path)) :
    ∃ u u', heap.item? a index = some u ∧ heap.item? b index = some u' := by
  obtain ⟨-, x, y, hx, hy, -⟩ := h
  obtain ⟨u, hu, -⟩ := exists_of_follow?_cons hx
  obtain ⟨u', hu', -⟩ := exists_of_follow?_cons hy
  exact ⟨u, u', hu, hu'⟩

theorem exists_items_of_waits (h : heap.Waits inside a b (index :: path)) :
    ∃ u u', heap.item? a index = some u ∧ heap.item? b index = some u' := by
  obtain ⟨-, _, _, -, hx, hy, -⟩ := h
  obtain ⟨u, hu, -⟩ := leads_cons.1 hx
  obtain ⟨u', hu', -⟩ := leads_cons.1 hy
  exact ⟨u, u', hu, hu'⟩

theorem locked_item {c : ArrayId} (hu : heap.item? (.array id) index = some u)
    (hu' : heap.item? (.array id') index = some u') :
    heap.Locked inside (.array id) (.array id') (index :: path) c ↔ heap.Locked (id' :: id :: inside) u u' path c := by
  constructor
  · rintro (hmem | ⟨p, q, hpath, hq, hl⟩)
    · exact .inl (List.mem_cons_of_mem _ (List.mem_cons_of_mem _ hmem))
    cases p with
    | nil =>
      rw [leads_nil, leads_nil, Value.array.injEq, Value.array.injEq] at hl
      obtain rfl | rfl := hl
      · exact .inl (List.mem_cons_of_mem _ List.mem_cons_self)
      · exact .inl List.mem_cons_self
    | cons i p =>
      obtain ⟨rfl, hrest⟩ := List.cons.inj hpath
      rw [leads_item hu, leads_item hu'] at hl
      exact .inr ⟨p, q, hrest, hq, hl⟩
  · rintro (hmem | ⟨p, q, rfl, hq, hl⟩)
    · rcases List.mem_cons.1 hmem with rfl | hmem
      · exact .inr ⟨[], index :: path, rfl, List.cons_ne_nil _ _, .inr rfl⟩
      rcases List.mem_cons.1 hmem with rfl | hmem
      · exact .inr ⟨[], index :: path, rfl, List.cons_ne_nil _ _, .inl rfl⟩
      · exact .inl hmem
    · rw [← leads_item hu, ← leads_item hu'] at hl
      exact .inr ⟨index :: p, q, rfl, hq, hl⟩

theorem waits_item (hne : id ≠ id') (hu : heap.item? (.array id) index = some u)
    (hu' : heap.item? (.array id') index = some u') :
    heap.Waits inside (.array id) (.array id') (index :: path) ↔ heap.Waits (id' :: id :: inside) u u' path := by
  have hvalue : (Value.array id) ≠ .array id' := fun h => hne (Value.array.inj h)
  unfold Waits
  simp only [separate_item hu hu', hvalue, ne_eq, not_false_eq_true, true_and, leads_item hu, leads_item hu',
    locked_item hu hu']

theorem waits_nil : heap.Waits inside (.array id) (.array id') [] ↔ id ≠ id' ∧ (id ∈ inside ∨ id' ∈ inside) := by
  have hlocked : ∀ c, heap.Locked inside (.array id) (.array id') [] c ↔ c ∈ inside := by
    refine fun c => ⟨?_, .inl⟩
    rintro (hmem | ⟨p, q, hpath, hq, -⟩)
    · exact hmem
    · exact absurd (List.nil_eq_append_iff.1 hpath).2 hq
  constructor
  · rintro ⟨-, c, c', hne, hc, hc', hl⟩
    cases leads_nil.1 hc
    cases leads_nil.1 hc'
    exact ⟨hne, hl.imp (hlocked _).1 (hlocked _).1⟩
  · rintro ⟨hne, hl⟩
    exact ⟨separate_nil, id, id', hne, rfl, rfl, hl.imp (hlocked _).2 (hlocked _).2⟩

theorem differs_nil : heap.Differs a b [] ↔ ¬ heap.Matches a b := by
  constructor
  · rintro ⟨-, x, y, hx, hy, h⟩
    cases hx
    cases hy
    exact h
  · exact fun h => ⟨separate_nil, a, b, rfl, rfl, h⟩

/-! ## The comparison -/

theorem equalFrom_leaves (h : ∀ id id', a = .array id → b ≠ .array id') (fuel : Nat) (inside : List ArrayId) :
    (heap.equalFrom fuel inside a b = some true ∧ heap.Matches a b) ∨
      heap.equalFrom fuel inside a b = some false ∧ ¬ heap.Matches a b := by
  cases a <;> cases b
  case array.array id id' => exact absurd rfl (h id id' rfl)
  all_goals
    simp only [equalFrom, Matches, Option.some.injEq, beq_iff_eq, beq_eq_false_iff_ne, ne_eq, reduceCtorEq,
      not_false_eq_true, and_self, false_or]
  case real.real x y => cases x == y <;> simp
  all_goals exact Classical.em _

/-- Two arrays: both are locked, then their sizes are compared, then their items. -/
theorem equalFrom_arrays (hne : id ≠ id') (fuel : Nat) :
    heap.equalFrom (fuel + 1) inside (.array id) (.array id') =
      if id ∈ inside ∨ id' ∈ inside then none
      else if (heap.inside (.array id)).length = (heap.inside (.array id')).length then
        pairwise? (heap.equalFrom fuel (id' :: id :: inside)) (heap.inside (.array id)) (heap.inside (.array id'))
      else some false := by
  rw [equalFrom, if_neg hne]
  by_cases hid : id ∈ inside
  · rw [if_pos (.inl hid), enter?_eq_none_iff.2 hid]
    rfl
  rw [enter?_eq_some_iff.2 ⟨hid, rfl⟩, Option.bind_eq_bind, Option.bind_some]
  by_cases hid' : id' ∈ inside
  · rw [if_pos (.inr hid'), enter?_eq_none_iff.2 (List.mem_cons_of_mem _ hid')]
    rfl
  have hnot : id' ∉ id :: inside := fun hmem => (List.mem_cons.1 hmem).elim (fun h => hne h.symm) hid'
  rw [if_neg (not_or.2 ⟨hid, hid'⟩), enter?_eq_some_iff.2 ⟨hnot, rfl⟩]
  rfl

theorem exists_array_of_item (hu : heap.item? v index = some u) : ∃ id, v = .array id := by
  by_cases hv : ∀ id, v ≠ .array id
  · rw [item?_of_not_array hv] at hu
    cases hu
  · obtain ⟨id, hid⟩ := Classical.not_forall.1 hv
    exact ⟨id, Classical.not_not.1 hid⟩

/-- Leaves hide nothing: it is at the leaves themselves that they differ, and nothing waits. -/
theorem decides_leaves (h : ∀ id id', a = .array id → b ≠ .array id') (fuel : Nat) :
    Decides (heap.Waits inside a b) (heap.Differs a b) (heap.equalFrom fuel inside a b) := by
  have hitems : ∀ {index u u'}, heap.item? a index = some u → heap.item? b index ≠ some u' := by
    intro index u u' hu hu'
    obtain ⟨id, hid⟩ := exists_array_of_item hu
    obtain ⟨id', hid'⟩ := exists_array_of_item hu'
    exact h id id' hid hid'
  have hwaits : ∀ path, ¬ heap.Waits inside a b path := by
    intro path hw
    cases path with
    | nil =>
      obtain ⟨-, id, id', -, hid, hid', -⟩ := hw
      exact h id id' (leads_nil.1 hid) (leads_nil.1 hid')
    | cons index path =>
      obtain ⟨u, u', hu, hu'⟩ := exists_items_of_waits hw
      exact hitems hu hu'
  obtain ⟨heq, hm⟩ | ⟨heq, hm⟩ := equalFrom_leaves h fuel inside
  · rw [heq]
    refine fun path => ⟨hwaits path, fun hd => ?_⟩
    cases path with
    | nil => exact differs_nil.1 hd hm
    | cons index path =>
      obtain ⟨u, u', hu, hu'⟩ := exists_items_of_differs hd
      exact hitems hu hu'
  · rw [heq]
    exact ⟨[], differs_nil.2 hm, fun earlier _ => hwaits earlier⟩

theorem decides_self (fuel : Nat) :
    Decides (heap.Waits inside (.array id) (.array id)) (heap.Differs (.array id) (.array id))
      (heap.equalFrom fuel inside (.array id) (.array id)) := by
  have heq : heap.equalFrom fuel inside (.array id) (.array id) = some true := by
    cases fuel <;> rw [equalFrom, if_pos rfl]
  rw [heq]
  intro path
  cases path with
  | nil => exact ⟨fun hw => (waits_nil.1 hw).1 rfl, fun hd => differs_nil.1 hd rfl⟩
  | cons index path =>
    refine ⟨fun hw => ?_, fun hd => ?_⟩
    · exact hw.1 [] (index :: path) rfl (List.cons_ne_nil _ _) rfl
    · exact hd.1 [] (index :: path) rfl (List.cons_ne_nil _ _) rfl

theorem not_waits_not_differs_of_item (hne : id ≠ id')
    (h : ∀ u u', heap.item? (.array id) index = some u → heap.item? (.array id') index = some u' →
      Decides (heap.Waits (id' :: id :: inside) u u') (heap.Differs u u') (some true)) (path : List Nat) :
    ¬ heap.Waits inside (.array id) (.array id') (index :: path) ∧
      ¬ heap.Differs (.array id) (.array id') (index :: path) := by
  constructor
  · intro hw
    obtain ⟨u, u', hu, hu'⟩ := exists_items_of_waits hw
    exact (h u u' hu hu' path).1 ((waits_item hne hu hu').1 hw)
  · intro hd
    obtain ⟨u, u', hu, hu'⟩ := exists_items_of_differs hd
    exact (h u u' hu hu' path).2 ((differs_item hu hu').1 hd).2

/-- **Two arrays that are not locked and have as many items are decided by the first pair of items that is.** -/
theorem decides_arrays (hne : id ≠ id') (hid : id ∉ inside) (hid' : id' ∉ inside)
    (hlen : (heap.inside (.array id)).length = (heap.inside (.array id')).length)
    {same? : Value → Value → Option Bool}
    (hitem : ∀ {index u u'}, heap.item? (.array id) index = some u → heap.item? (.array id') index = some u' →
      Decides (heap.Waits (id' :: id :: inside) u u') (heap.Differs u u') (same? u u')) :
    Decides (heap.Waits inside (.array id) (.array id')) (heap.Differs (.array id) (.array id'))
      (pairwise? same? (heap.inside (.array id)) (heap.inside (.array id'))) := by
  have hvalue : (Value.array id) ≠ .array id' := fun h => hne (Value.array.inj h)
  have hhere : ¬ heap.Waits inside (.array id) (.array id') [] ∧ ¬ heap.Differs (.array id) (.array id') [] :=
    ⟨fun hw => (waits_nil.1 hw).2.elim hid hid', fun hd => differs_nil.1 hd hlen⟩
  have hequal : ∀ index, (∀ x y, (heap.inside (.array id))[index]? = some x →
      (heap.inside (.array id'))[index]? = some y → same? x y = some true) → ∀ path,
        ¬ heap.Waits inside (.array id) (.array id') (index :: path) ∧
          ¬ heap.Differs (.array id) (.array id') (index :: path) := by
    refine fun index h => not_waits_not_differs_of_item hne fun u u' hu hu' => ?_
    rw [← h u u' (by rwa [← item?_array]) (by rwa [← item?_array])]
    exact hitem hu hu'
  obtain ⟨heq, hall⟩ | ⟨i, x, y, hx, hy, hfirst, heq, hbefore⟩ := pairwise?_first same? hlen
  · rw [heq]
    intro path
    cases path with
    | nil => exact hhere
    | cons index path => exact hequal index (hall index) path
  · rw [← item?_array] at hx hy
    have hdecides := hitem hx hy
    have hearlier : ∀ j, j < i → ∀ path, ¬ heap.Waits inside (.array id) (.array id') (j :: path) ∧
        ¬ heap.Differs (.array id) (.array id') (j :: path) := fun j hj => hequal j fun x' y' => hbefore j x' y' hj
    rw [heq]
    match hs : same? x y with
    | some true => exact absurd hs hfirst
    | none =>
      rw [hs] at hdecides
      obtain ⟨path, hw, hnone⟩ := hdecides
      refine ⟨i :: path, (waits_item hne hx hy).2 hw, fun earlier hbefore hd => ?_⟩
      cases earlier with
      | nil => exact hhere.2 hd
      | cons j earlier =>
        obtain hlt | ⟨rfl, hlater⟩ := hbefore
        · exact (hearlier j hlt earlier).2 hd
        · exact hnone earlier hlater ((differs_item hx hy).1 hd).2
    | some false =>
      rw [hs] at hdecides
      obtain ⟨path, hd, hnone⟩ := hdecides
      refine ⟨i :: path, (differs_item hx hy).2 ⟨hvalue, hd⟩, fun earlier hnot hw => ?_⟩
      cases earlier with
      | nil => exact hhere.1 hw
      | cons j earlier =>
        obtain hlt | rfl | hgt := Nat.lt_trichotomy j i
        · exact (hearlier j hlt earlier).1 hw
        · exact hnone earlier (fun h => hnot (.inr ⟨rfl, h⟩)) ((waits_item hne hx hy).1 hw)
        · exact hnot (.inl hgt)

/-- **What decides a comparison is the first place that does**, with fuel for as many arrays as it can be inside of. -/
theorem equalFrom_decides : ∀ (fuel : Nat) {inside : List ArrayId} {a b : Value}, inside.Nodup →
    (∀ id ∈ inside, id.index < heap.arrays.size) → heap.arrays.size < fuel + inside.length →
      Decides (heap.Waits inside a b) (heap.Differs a b) (heap.equalFrom fuel inside a b) := by
  intro fuel
  induction fuel with
  | zero =>
    intro inside a b hn hlt hfuel
    have := Graft.length_le_of_nodup hn hlt
    omega
  | succ fuel ih =>
    intro inside a b hn hlt hfuel
    by_cases hleaf : ∀ id id', a = .array id → b ≠ .array id'
    · exact decides_leaves hleaf _
    simp only [not_forall, not_not] at hleaf
    obtain ⟨id, id', rfl, rfl⟩ := hleaf
    by_cases hne : id = id'
    · subst hne
      exact decides_self _
    rw [equalFrom_arrays hne]
    by_cases hlocked : id ∈ inside ∨ id' ∈ inside
    · rw [if_pos hlocked]
      exact ⟨[], waits_nil.2 ⟨hne, hlocked⟩, fun _ h => absurd h not_before_nil⟩
    rw [if_neg hlocked]
    obtain ⟨hid, hid'⟩ := not_or.1 hlocked
    by_cases hlen : (heap.inside (.array id)).length = (heap.inside (.array id')).length
    · rw [if_pos hlen]
      refine decides_arrays hne hid hid' hlen fun {index u u'} hu hu' => ih ?_ ?_ ?_
      · exact List.nodup_cons.2 ⟨fun hmem => (List.mem_cons.1 hmem).elim (fun h => hne h.symm) hid',
          List.nodup_cons.2 ⟨hid, hn⟩⟩
      · exact List.forall_mem_cons.2 ⟨index_lt_of_mem_inside (mem_inside_iff.2 ⟨index, hu'⟩),
          List.forall_mem_cons.2 ⟨index_lt_of_mem_inside (mem_inside_iff.2 ⟨index, hu⟩), hlt⟩⟩
      · rw [List.length_cons, List.length_cons]
        omega
    · rw [if_neg hlen]
      refine ⟨[], differs_nil.2 hlen, fun earlier hearlier => ?_⟩
      cases earlier with
      | nil => exact fun hw => (waits_nil.1 hw).2.elim hid hid'
      | cons index earlier => exact absurd trivial hearlier

theorem equal?_decides (heap : Heap) (a b : Value) :
    Decides (heap.Waits [] a b) (heap.Differs a b) (heap.equal? a b) :=
  equalFrom_decides _ List.nodup_nil (List.forall_mem_nil _) (Nat.lt_succ_self _)

/-! ## Values without arrays that contain themselves -/

/-- **In such values a comparison waits just where they cross.** -/
theorem waits_iff_crosses (ha : heap.Unfolds a) (hb : heap.Unfolds b) :
    heap.Waits [] a b path ↔ heap.Crosses a b path := by
  constructor
  · rintro ⟨-, id, id', -, hid, hid', hlocked⟩
    refine ⟨id, id', hid, hid', ?_⟩
    obtain (hmem | ⟨p, q, rfl, hq, hl | hl⟩) | hmem | ⟨p, q, rfl, hq, hl | hl⟩ := hlocked
    · cases hmem
    · exact absurd ⟨q, hq, hl.append_iff.1 hid⟩ (ha p id hl)
    · exact ⟨p, q, rfl, hq, .inr hl⟩
    · cases hmem
    · exact ⟨p, q, rfl, hq, .inl hl⟩
    · exact absurd ⟨q, hq, hl.append_iff.1 hid'⟩ (hb p id' hl)
  · rintro ⟨id, id', hid, hid', p, q, hpath, hq, hl⟩
    have hne : id ≠ id' := by
      rintro rfl
      subst hpath
      obtain hl | hl := hl
      · exact ha p id hl ⟨q, hq, hl.append_iff.1 hid⟩
      · exact hb p id hl ⟨q, hq, hl.append_iff.1 hid'⟩
    refine ⟨fun s t hst _ hsame => hne ?_, id, id', hne, hid, hid', ?_⟩
    · -- from an array that is the same on both sides, the path leads to the same
      unfold Leads at hid hid'
      rw [hst, follow?_append, hsame, ← follow?_append, ← hst, hid'] at hid
      exact Value.array.inj (Option.some.inj hid.symm)
    · exact hl.elim (fun hl => .inr (.inr ⟨p, q, hpath, hq, .inl hl⟩)) fun hl => .inl (.inr ⟨p, q, hpath, hq, .inr hl⟩)

theorem Matches.of_self (h : ∀ x, v = .real x → (x == x) = true) : heap.Matches v v := by
  cases v
  case real x => exact h x rfl
  all_goals rfl

theorem alike_iff_not_differs (ha : heap.NoNaN a) : heap.Alike a b ↔ ∀ path, ¬ heap.Differs a b path := by
  constructor
  · rintro h path ⟨-, x, y, hx, hy, hm⟩
    exact hm (h path x y hx hy)
  · intro h path x y hx hy
    by_cases hseparate : heap.Separate a b path
    · exact Classical.not_not.1 fun hm => h path ⟨hseparate, x, y, hx, hy, hm⟩
    unfold Separate at hseparate
    simp only [not_forall, not_not] at hseparate
    obtain ⟨p, q, rfl, -, hsame⟩ := hseparate
    have hxy : x = y := by
      rw [follow?_append, hsame, ← follow?_append, hy] at hx
      exact (Option.some.inj hx).symm
    subst hxy
    exact .of_self fun r hr => ha _ r (by rw [hx, hr])

theorem Alike.item {index : Nat} (h : heap.Alike a b) (hu : heap.item? a index = some u)
    (hu' : heap.item? b index = some u') : heap.Alike u u' := by
  intro path x y hx hy
  refine h (index :: path) x y ?_ ?_
  · rwa [follow?_cons hu]
  · rwa [follow?_cons hu']

theorem Alike.isSome_item? (h : heap.Alike a b) (index : Nat) :
    (heap.item? a index).isSome = (heap.item? b index).isSome := by
  have hm := h [] a b rfl rfl
  cases a <;> cases b
  case array.array id id' =>
    have hlen : (heap.inside (.array id)).length = (heap.inside (.array id')).length := hm
    rw [Bool.eq_iff_iff]
    simp only [item?_array, Option.isSome_iff_ne_none, ne_eq, List.getElem?_eq_none_iff, hlen]
  all_goals first
    | rfl
    | exact hm.elim

/-- **Values that are alike have arrays at the same places.** -/
theorem Alike.leads_iff : ∀ (path : List Nat) {a b : Value}, heap.Alike a b →
    ((∃ id, heap.Leads a path id) ↔ ∃ id, heap.Leads b path id)
  | [], a, b, h => by
    have hm := h [] a b rfl rfl
    simp only [leads_nil]
    cases a <;> cases b
    case array.array id id' => exact iff_of_true ⟨id, rfl⟩ ⟨id', rfl⟩
    all_goals first
      | exact hm.elim
      | exact iff_of_false nofun nofun
  | index :: path, a, b, h => by
    have hsome := h.isSome_item? index
    simp only [leads_cons]
    cases hu : heap.item? a index with
    | none =>
      rw [hu, Option.isSome_none, eq_comm, Option.isSome_eq_false_iff, Option.isNone_iff_eq_none] at hsome
      rw [hsome]
    | some u =>
      rw [hu, Option.isSome_some, eq_comm, Option.isSome_iff_exists] at hsome
      obtain ⟨u', hu'⟩ := hsome
      rw [hu']
      simpa using leads_iff path (h.item hu hu')

theorem length_le_of_clear : ∀ (path : List Nat) {inside : List ArrayId} {v : Value} {id : ArrayId}, inside.Nodup →
    (∀ id ∈ inside, id.index < heap.arrays.size) → heap.Clear (fun _ => True) inside v → heap.Leads v path id →
      path.length + inside.length ≤ heap.arrays.size
  | [], inside, _, _, hn, hlt, _, _ => by
    rw [List.length_nil, Nat.zero_add]
    exact Graft.length_le_of_nodup hn hlt
  | index :: path, inside, v, id, hn, hlt, hclear, hl => by
    obtain ⟨u, hu, hrest⟩ := leads_cons.1 hl
    obtain ⟨a, rfl⟩ := exists_array_of_item hu
    have hmem := mem_inside_iff.2 ⟨index, hu⟩
    obtain ⟨hnot, hitems⟩ := (clear_array _ trivial).1 hclear
    have := length_le_of_clear path (List.nodup_cons.2 ⟨hnot, hn⟩)
      (List.forall_mem_cons.2 ⟨index_lt_of_mem_inside hmem, hlt⟩) (hitems u hmem) hrest
    rw [List.length_cons] at this ⊢
    omega

/-- **A value is not alike to an array inside it**, unless an array contains itself: from the array the path into it
would lead on without end. -/
theorem Unfolds.not_same_arrays (hid : heap.Unfolds (.array id)) (hl : heap.Leads v path id) (hpath : path ≠ [])
    (hsame : ∀ p, (∃ c, heap.Leads v p c) ↔ ∃ c, heap.Leads (.array id) p c) : False := by
  have hpos := List.length_pos_iff.2 hpath
  have hagain : ∀ n, ∃ p, n ≤ p.length ∧ ∃ c, heap.Leads (.array id) p c := by
    intro n
    induction n with
    | zero => exact ⟨[], Nat.le_refl 0, id, rfl⟩
    | succ n ih =>
      obtain ⟨p, hle, c, hc⟩ := ih
      refine ⟨path ++ p, ?_, (hsame _).1 ⟨c, hl.append_iff.2 hc⟩⟩
      rw [List.length_append]
      omega
  obtain ⟨p, hlong, c, hc⟩ := hagain (heap.arrays.size + 1)
  have hle := length_le_of_clear p List.nodup_nil (List.forall_mem_nil _) (clear_iff_unfolds.2 hid) hc
  rw [List.length_nil] at hle
  omega

theorem Unfolds.of_leads (hv : heap.Unfolds v) (hl : heap.Leads v path id) : heap.Unfolds (.array id) :=
  fun p c hc => hv (path ++ p) c (hl.append_iff.2 hc)

theorem Alike.follow {x y : Value} (h : heap.Alike a b) (hx : heap.follow? a path = some x)
    (hy : heap.follow? b path = some y) : heap.Alike x y := by
  intro p x' y' hx' hy'
  refine h (path ++ p) x' y' ?_ ?_
  · rw [follow?_append, hx, Option.bind_some, hx']
  · rw [follow?_append, hy, Option.bind_some, hy']

/-- **Values that cross are not alike.** -/
theorem Alike.not_crosses (h : heap.Alike a b) (ha : heap.Unfolds a) (hb : heap.Unfolds b) :
    ¬ heap.Crosses a b path := by
  rintro ⟨id, id', hid, hid', p, q, rfl, hq, hl | hl⟩
  · obtain ⟨z, hz, hzq⟩ := Option.bind_eq_some_iff.1 ((follow?_append p q).symm.trans hid')
    exact (ha.of_leads hl).not_same_arrays hzq hq fun r => (leads_iff r (h.follow hl hz)).symm
  · obtain ⟨z, hz, hzq⟩ := Option.bind_eq_some_iff.1 ((follow?_append p q).symm.trans hid)
    exact (hb.of_leads hl).not_same_arrays hzq hq fun r => leads_iff r (h.follow hz hl)

/-- **When a comparison of values without arrays that contain themselves answers, and what.**  It waits for ever just if
the values cross on a path before which they do not differ; in particular it answers if no array of one value is an
array of the other.  Without NaN the answer is that they are equal just if they are of the same shape with equal
leaves. -/
theorem equality_answers_iff (ha : heap.Unfolds a) (hb : heap.Unfolds b) :
    (heap.equal? a b = none ↔
      ∃ path, heap.Crosses a b path ∧ ∀ earlier, Before earlier path → ¬ heap.Differs a b earlier) ∧
    (heap.NoNaN a → (heap.equal? a b = some true ↔ heap.Alike a b)) := by
  have hdecides := equal?_decides heap a b
  refine ⟨?_, fun hnan => ?_⟩
  · rw [hdecides.eq_none_iff]
    simp only [waits_iff_crosses ha hb]
  · rw [hdecides.eq_true_iff, alike_iff_not_differs hnan]
    refine ⟨fun h path => (h path).2, fun h path => ⟨fun hw => ?_, h path⟩⟩
    exact ((alike_iff_not_differs hnan).2 h).not_crosses ha hb ((waits_iff_crosses ha hb).1 hw)

theorem grounded_of_index_lt
    (h : ∀ id inner, Value.array inner ∈ heap.inside (.array id) → inner.index < id.index) : heap.Grounded := by
  have hbelow : ∀ path id inner, heap.Leads (.array id) path inner → path ≠ [] → inner.index < id.index := by
    intro path
    induction path with
    | nil => exact fun _ _ _ hne => absurd rfl hne
    | cons index path ih =>
      intro id inner hl _
      obtain ⟨u, hu, hl⟩ := leads_cons.1 hl
      have hmem := mem_inside_iff.2 ⟨index, hu⟩
      cases path with
      | nil =>
        cases leads_nil.1 hl
        exact h id inner hmem
      | cons i path =>
        obtain ⟨w, hw, -⟩ := leads_cons.1 hl
        obtain ⟨a, rfl⟩ := exists_array_of_item hw
        exact Nat.lt_trans (ih a inner hl (List.cons_ne_nil _ _)) (h id a hmem)
  rintro id ⟨path, hne, hl⟩
  exact Nat.lt_irrefl _ (hbelow path id id hl hne)

/-- Arrays one inside the other, and beside them two more like the first and the second. -/
def nested : Heap where
  arrays := #[#[.bool true], #[.array ⟨0⟩], #[.array ⟨1⟩], #[.bool true], #[.array ⟨3⟩]]

theorem grounded_nested : nested.Grounded := by
  refine grounded_of_index_lt fun ⟨index⟩ inner hmem => ?_
  have hlt := index_lt_of_mem_inside hmem
  simp only [nested, List.size_toArray, List.length_cons, List.length_nil] at hlt
  interval_cases index <;> simp [inside, items?, nested] at hmem <;> subst hmem <;> decide

theorem noNaN_nested : ∀ {v : Value}, (∀ x, v ≠ .real x) → nested.NoNaN v := by
  intro v hv path
  induction path generalizing v with
  | nil => exact fun x hx => absurd (Option.some.inj hx) (hv x)
  | cons index path ih =>
    intro x hx
    obtain ⟨u, hu, hrest⟩ := exists_of_follow?_cons hx
    obtain ⟨⟨a⟩, rfl⟩ := exists_array_of_item hu
    have hmem := mem_inside_iff.2 ⟨index, hu⟩
    have hlt := index_lt_of_mem_inside hmem
    refine ih (fun y hy => ?_) x hrest
    subst hy
    simp only [nested, List.size_toArray, List.length_cons, List.length_nil] at hlt
    interval_cases a <;> simp [inside, items?, nested] at hmem

/-- Two arrays alike without anything in common are found to be equal; an array and the one that it is inside of cross
before they differ. -/
theorem equality_answers_iff_nested :
    nested.Alike (.array ⟨1⟩) (.array ⟨4⟩) ∧
    ∃ path, nested.Crosses (.array ⟨1⟩) (.array ⟨2⟩) path ∧
      ∀ earlier, Before earlier path → ¬ nested.Differs (.array ⟨1⟩) (.array ⟨2⟩) earlier := by
  have hunfolds := grounded_nested.unfolds
  have hnan : nested.NoNaN (.array ⟨1⟩) := noNaN_nested nofun
  obtain ⟨-, halike⟩ := equality_answers_iff (hunfolds (.array ⟨1⟩)) (hunfolds (.array ⟨4⟩))
  obtain ⟨hwaits, -⟩ := equality_answers_iff (hunfolds (.array ⟨1⟩)) (hunfolds (.array ⟨2⟩))
  exact ⟨(halike hnan).1 (by decide), hwaits.1 (by decide)⟩

/-- **A comparison can wait although no array contains itself**: between an array and one that holds it.  They are not
even alike. -/
theorem equality_waits :
    nested.Grounded ∧ nested.equal? (.array ⟨1⟩) (.array ⟨2⟩) = none ∧
      ¬ nested.Alike (.array ⟨1⟩) (.array ⟨2⟩) := by
  refine ⟨grounded_nested, by decide, fun h => ?_⟩
  exact h [0, 0] (.bool true) (.array ⟨0⟩) rfl rfl

end Heap

end PseudoVm
