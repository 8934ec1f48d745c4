import PseudoVm.Proofs.Value.Nesting
/-!
# Value.Copies: what a copy of a value is

A copy goes as the value does (`Heap.CopyOf`): down to the levels that were asked for its arrays are new, one for each
path, so that what paths shared they no longer share; from there on it is the value itself.  A copy stays a copy when
more arrays come (`CopyOf.later`), and the items of an array are copied into one stretch of new arrays after the other
(`copyItems?_copies`), which keeps the arrays of two items apart.
-/
namespace PseudoVm

namespace Heap

variable {h h₀ h₁ h₂ h₃ : Heap} {dims : Nat} {v c : Value}

/-- **A copy of a value**, made down to so many levels.  `h` is a heap that supports the value; the copy was made from
`h₁` and is in `h₂`. -/
structure CopyOf (h h₁ h₂ : Heap) (dims : Nat) (v c : Value) : Prop where
  supports : h₂.Supports c
  /-- Where the value has an array, the copy has a new one of as many items, down to the levels that were copied. -/
  array : ∀ path id, path.length < dims → h.Leads v path id → ∃ id', h₂.Leads c path id' ∧
    h₁.arrays.size ≤ id'.index ∧ (h₂.inside (.array id')).length = (h.inside (.array id)).length
  /-- Everywhere else the copy has the very same as the value. -/
  same : ∀ path, (path.length < dims → ∀ id, ¬ h.Leads v path id) → h₂.follow? c path = h.follow? v path
  /-- No two paths lead to one of the new arrays. -/
  distinct : ∀ p q id, p.length < dims → q.length < dims → h₂.Leads c p id → h₂.Leads c q id → p = q

/-- An array of a copy: one that it has at a level that was copied. -/
def Copied (h : Heap) (dims : Nat) (c : Value) (id : ArrayId) : Prop := ∃ path, path.length < dims ∧ h.Leads c path id

/-- Two copies have no array in common at the levels that were copied. -/
def Apart (h : Heap) (dims : Nat) (c c' : Value) : Prop := ∀ id, h.Copied dims c id → ¬ h.Copied dims c' id

namespace CopyOf

theorem self (he : Extends h h₁) (hs : h.Supports v)
    (hnone : ∀ path, path.length < dims → ∀ id, ¬ h.Leads v path id) : CopyOf h h₁ h₁ dims v v := by
  have hfollow := he.follow?_eq hs
  refine ⟨fun path id hl => ?_, fun path id hlt hl => absurd hl (hnone path hlt id), fun path _ => hfollow path, ?_⟩
  · exact Nat.lt_of_lt_of_le (hs path id ((hfollow path).symm.trans hl)) he.size_le
  · intro p q id hp _ hl _
    exact absurd ((hfollow p).symm.trans hl) (hnone p hp id)

/-- **The arrays of a copy are new.** -/
theorem size_le (hc : CopyOf h h₁ h₂ dims v c) {id : ArrayId} (hid : h₂.Copied dims c id) :
    h₁.arrays.size ≤ id.index := by
  obtain ⟨path, hlt, hl⟩ := hid
  by_cases hv : ∃ a, h.Leads v path a
  · obtain ⟨a, ha⟩ := hv
    obtain ⟨id', hl', hle, -⟩ := hc.array path a hlt ha
    cases hl.symm.trans hl'
    exact hle
  · have hnot := not_exists.1 hv
    exact absurd ((hc.same path fun _ => hnot).symm.trans hl) (hnot id)

theorem later (hc : CopyOf h h₁ h₂ dims v c) (he : Extends h₂ h₃) : CopyOf h h₁ h₃ dims v c := by
  have hfollow := he.follow?_eq hc.supports
  have hleads : ∀ {path id}, h₃.Leads c path id → h₂.Leads c path id := fun {path _} hl => (hfollow path).symm.trans hl
  refine ⟨fun path id hl => ?_, fun path id hlt hl => ?_, fun path hno => ?_, fun p q id hp hq hl hl' => ?_⟩
  · exact Nat.lt_of_lt_of_le (hc.supports path id (hleads hl)) he.size_le
  · obtain ⟨id', hl', hle, hlength⟩ := hc.array path id hlt hl
    refine ⟨id', (hfollow path).trans hl', hle, ?_⟩
    rw [he.inside_eq (hc.supports path id' hl'), hlength]
  · exact (hfollow path).trans (hc.same path hno)
  · exact hc.distinct p q id hp hq (hleads hl) (hleads hl')

theorem mono (hc : CopyOf h h₁ h₂ dims v c) (hle : h₀.arrays.size ≤ h₁.arrays.size) : CopyOf h h₀ h₂ dims v c where
  supports := hc.supports
  array path id hlt hl := by
    obtain ⟨id', hl', hle', hlength⟩ := hc.array path id hlt hl
    exact ⟨id', hl', Nat.le_trans hle hle', hlength⟩
  same := hc.same
  distinct := hc.distinct

end CopyOf

theorem forall₂_getElem? {α β : Type} {R : α → β → Prop} {xs : List α} {ys : List β} (hall : List.Forall₂ R xs ys)
    (i : Nat) : (xs[i]? = none ∧ ys[i]? = none) ∨ ∃ x y, xs[i]? = some x ∧ ys[i]? = some y ∧ R x y := by
  by_cases hi : i < xs.length
  · have hi' : i < ys.length := hall.length_eq ▸ hi
    exact .inr ⟨xs[i], ys[i], List.getElem?_eq_getElem hi, List.getElem?_eq_getElem hi', hall.get hi hi'⟩
  · have hi' : ¬ i < ys.length := hall.length_eq ▸ hi
    exact .inl ⟨List.getElem?_eq_none (Nat.le_of_not_lt hi), List.getElem?_eq_none (Nat.le_of_not_lt hi')⟩

theorem pairwise_getElem? {α : Type} {R : α → α → Prop} {xs : List α} (hxs : xs.Pairwise R) {i j : Nat} (hij : i < j)
    {x y : α} (hx : xs[i]? = some x) (hy : xs[j]? = some y) : R x y := by
  obtain ⟨hi, rfl⟩ := List.getElem?_eq_some_iff.1 hx
  obtain ⟨hj, rfl⟩ := List.getElem?_eq_some_iff.1 hy
  exact List.pairwise_iff_getElem.1 hxs i j hi hj hij

/-- **Items are copied apart from each other**: what one copy is made of was there when the next was begun. -/
theorem copyItems?_copies {copy? : Heap → Value → Option (Value × Heap)} {items : List Value}
    (hextends : ∀ {h v c h₁}, copy? h v = some (c, h₁) → Extends h h₁)
    (hcopy : ∀ v ∈ items, ∀ {h₁ c h₂}, Extends h h₁ → copy? h₁ v = some (c, h₂) → CopyOf h h₁ h₂ dims v c) :
    ∀ {h₁ cs h₂}, Extends h h₁ → copyItems? copy? h₁ items = some (cs, h₂) →
      List.Forall₂ (CopyOf h h₁ h₂ dims) items cs ∧ cs.Pairwise (h₂.Apart dims) := by
  induction items with
  | nil =>
    intro h₁ cs h₂ _ heq
    cases heq
    exact ⟨.nil, .nil⟩
  | cons v items ih =>
    intro h₁ cs h₂ he heq
    obtain ⟨⟨c, h'⟩, hc, hrest⟩ := Option.bind_eq_some_iff.1 heq
    obtain ⟨⟨cs', h''⟩, hcs, hend⟩ := Option.bind_eq_some_iff.1 hrest
    cases hend
    obtain ⟨hv, hitems⟩ := List.forall_mem_cons.1 hcopy
    have hstart := hextends hc
    have hlater := copyItems?_extends hextends hcs
    have hhead := hv he hc
    obtain ⟨hall, hapart⟩ := ih hitems (he.trans hstart) hcs
    refine ⟨.cons (hhead.later hlater) (hall.imp fun _ _ h => h.mono hstart.size_le), .cons ?_ hapart⟩
    rintro c' hc' id ⟨path, -, hl⟩ hid
    -- The array of the first copy was there before the other copy was begun.
    have hlt := hhead.supports path id ((hlater.follow?_eq hhead.supports path).symm.trans hl)
    obtain ⟨i, hi⟩ := List.mem_iff_getElem?.1 hc'
    obtain ⟨-, hnone⟩ | ⟨u, c'', -, hi', hu⟩ := forall₂_getElem? hall i
    · rw [hnone] at hi
      cases hi
    · cases hi.symm.trans hi'
      exact absurd hlt (Nat.not_lt_of_le (hu.size_le hid))

/-- **A new array of copies**: its items are copies of those of another array, apart from each other, and it came after
them. -/
structure CopiedItems (h h₀ h₁ h₂ : Heap) (dims : Nat) (id id' : ArrayId) (cs : List Value) : Prop where
  later : Extends h₁ h₂
  index : id'.index = h₁.arrays.size
  size : id'.index < h₂.arrays.size
  inside : h₂.inside (.array id') = cs
  old : h₀.arrays.size ≤ h₁.arrays.size
  copies : List.Forall₂ (CopyOf h h₀ h₁ dims) (h.inside (.array id)) cs
  apart : cs.Pairwise (h₁.Apart dims)

namespace CopiedItems

variable {id id' a : ArrayId} {cs : List Value} {i j : Nat} {p q : List Nat}

theorem item (hc : CopiedItems h h₀ h₁ h₂ dims id id' cs) (i : Nat) :
    (h.item? (.array id) i = none ∧ h₂.item? (.array id') i = none) ∨
    ∃ u c, h.item? (.array id) i = some u ∧ h₂.item? (.array id') i = some c ∧ CopyOf h h₀ h₁ dims u c := by
  rw [item?_array, item?_array, hc.inside]
  exact forall₂_getElem? hc.copies i

/-- A path that goes on into the copy leads to what was there before it. -/
theorem leads_into (hc : CopiedItems h h₀ h₁ h₂ dims id id' cs) (hl : h₂.Leads (.array id') (i :: p) a) :
    ∃ u c, cs[i]? = some c ∧ CopyOf h h₀ h₁ dims u c ∧ h₁.Leads c p a := by
  obtain ⟨c, hi, hl⟩ := leads_cons.1 hl
  obtain ⟨-, hnone⟩ | ⟨u, c', -, hi', hcopy⟩ := hc.item i
  · cases hi.symm.trans hnone
  · cases hi.symm.trans hi'
    rw [item?_array, hc.inside] at hi
    exact ⟨u, c, hi, hcopy, (hc.later.follow?_eq hcopy.supports p).symm.trans hl⟩

theorem index_lt (hc : CopiedItems h h₀ h₁ h₂ dims id id' cs) (hl : h₂.Leads (.array id') (i :: p) a) :
    a.index < id'.index := by
  obtain ⟨u, c, -, hcopy, hl⟩ := hc.leads_into hl
  exact hc.index ▸ hcopy.supports p a hl

theorem not_leads_of_lt (hc : CopiedItems h h₀ h₁ h₂ dims id id' cs) (hp : p.length < dims) (hq : q.length < dims)
    (hij : i < j) (hl : h₂.Leads (.array id') (i :: p) a) : ¬ h₂.Leads (.array id') (j :: q) a := by
  intro hl'
  obtain ⟨u, c, hi, -, hl⟩ := hc.leads_into hl
  obtain ⟨u', c', hj, -, hl'⟩ := hc.leads_into hl'
  exact pairwise_getElem? hc.apart hij hi hj a ⟨p, hp, hl⟩ ⟨q, hq, hl'⟩

theorem distinct (hc : CopiedItems h h₀ h₁ h₂ dims id id' cs) (hp : p.length < dims + 1) (hq : q.length < dims + 1)
    (hl : h₂.Leads (.array id') p a) (hl' : h₂.Leads (.array id') q a) : p = q := by
  cases p with
  | nil =>
    cases q with
    | nil => rfl
    | cons j q =>
      cases leads_nil.1 hl
      exact absurd (hc.index_lt hl') (Nat.lt_irrefl _)
  | cons i p =>
    cases q with
    | nil =>
      cases leads_nil.1 hl'
      exact absurd (hc.index_lt hl) (Nat.lt_irrefl _)
    | cons j q =>
      have hpd := Nat.lt_of_succ_lt_succ hp
      have hqd := Nat.lt_of_succ_lt_succ hq
      obtain hij | rfl | hij := Nat.lt_trichotomy i j
      · exact absurd hl' (hc.not_leads_of_lt hpd hqd hij hl)
      · obtain ⟨u, c, hi, hcopy, hl⟩ := hc.leads_into hl
        obtain ⟨u', c', hi', -, hl'⟩ := hc.leads_into hl'
        cases hi.symm.trans hi'
        rw [hcopy.distinct p q a hpd hqd hl hl']
      · exact absurd hl (hc.not_leads_of_lt hqd hpd hij hl')

/-- **A new array of copies is a copy of the array.** -/
theorem copyOf (hc : CopiedItems h h₀ h₁ h₂ dims id id' cs) :
    CopyOf h h₀ h₂ (dims + 1) (.array id) (.array id') where
  supports path a hl := by
    cases path with
    | nil =>
      cases leads_nil.1 hl
      exact hc.size
    | cons i path => exact Nat.lt_trans (hc.index_lt hl) hc.size
  array path a hlt hl := by
    cases path with
    | nil =>
      cases leads_nil.1 hl
      exact ⟨id', rfl, hc.index ▸ hc.old, by rw [hc.inside, hc.copies.length_eq]⟩
    | cons i path =>
      obtain ⟨u, hu, hl⟩ := leads_cons.1 hl
      obtain ⟨hnone, -⟩ | ⟨u', c, hu', hi, hcopy⟩ := hc.item i
      · cases hu.symm.trans hnone
      · cases hu.symm.trans hu'
        obtain ⟨a', hl', hnew⟩ := (hcopy.later hc.later).array path a (Nat.lt_of_succ_lt_succ hlt) hl
        exact ⟨a', leads_cons.2 ⟨c, hi, hl'⟩, hnew⟩
  same path hno := by
    cases path with
    | nil => exact absurd rfl (hno (Nat.zero_lt_succ _) id)
    | cons i path =>
      rw [follow?, follow?]
      obtain ⟨hnone, hnone'⟩ | ⟨u, c, hu, hi, hcopy⟩ := hc.item i
      · rw [hnone, hnone']
        rfl
      · rw [hu, hi]
        exact (hcopy.later hc.later).same path fun hlt a hl =>
          hno (Nat.succ_lt_succ hlt) a (leads_cons.2 ⟨u, hu, hl⟩)
  distinct _ _ _ hp hq hl hl' := hc.distinct hp hq hl hl'

end CopiedItems

/-- **A copy is a copy.** -/
theorem copyFrom_copies : ∀ (dims : Nat) {inside : List ArrayId} {h₁ : Heap} {v c : Value} {h₂ : Heap},
    Extends h h₁ → h.Supports v → copyFrom dims inside h₁ v = some (c, h₂) → CopyOf h h₁ h₂ dims v c
  | 0, _, _, _, _, _, he, hs, heq => by
    cases heq
    exact .self he hs fun _ hlt => absurd hlt (Nat.not_lt_zero _)
  | dims + 1, inside, h₁, v, c, h₂, he, hs, heq => by
    by_cases hv : ∀ id, v ≠ .array id
    · obtain ⟨rfl, rfl⟩ : v = c ∧ h₁ = h₂ := by
        cases v with
        | array id => exact absurd rfl (hv id)
        | _ =>
          cases heq
          exact ⟨rfl, rfl⟩
      exact .self he hs fun path _ => not_leads hv path
    obtain ⟨id, hid⟩ := Classical.not_forall.1 hv
    cases Classical.not_not.1 hid
    obtain ⟨items, henter, hrest⟩ := Option.bind_eq_some_iff.1 heq
    obtain ⟨⟨cs, h'⟩, hcs, hend⟩ := Option.bind_eq_some_iff.1 hrest
    cases hend
    obtain ⟨-, rfl⟩ := enter?_eq_some_iff.1 henter
    rw [he.inside_eq (hs [] id rfl)] at hcs
    obtain ⟨hall, hapart⟩ := copyItems?_copies (copyFrom_extends dims) (fun u hu _ _ _ he hc => by
      obtain ⟨index, hu⟩ := mem_inside_iff.1 hu
      exact copyFrom_copies dims he (hs.item hu) hc) he hcs
    have hinside := inside_newArray h' cs (.array ⟨h'.arrays.size⟩)
    rw [if_pos rfl] at hinside
    have hold := (copyItems?_extends (copyFrom_extends dims) hcs).size_le
    exact CopiedItems.copyOf ⟨.newArray _, rfl, by simp, hinside, hold, hall, hapart⟩

end Heap

end PseudoVm
