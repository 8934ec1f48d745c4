import Mathlib.Tactic.IntervalCases
import PseudoVm.Proofs.Image.WellFormed
import PseudoVm.Proofs.Value.Graft
/-!
# Value.Nesting: when a traversal comes to an end

A traversal waits for ever if it comes back to an array that it is inside of.  Where it can come to is said by paths of
element hops (`Heap.follow?`): showing a value follows every path, and ends unless some array is below itself; a copy
follows those with fewer hops than there are levels to copy, and ends unless one of them visits an array twice
(`Heap.traversals_end_iff`).  Both are one condition on the paths from where a traversal stands (`Heap.Clear`), which
splits at an array as the traversals do (`Heap.clear_array`).
-/
namespace PseudoVm

namespace Heap

/-- The item of an array at an index; other values have none. -/
def item? (heap : Heap) (v : Value) (index : Nat) : Option Value :=
  match v with
  | .array id => ((heap.items? id).getD #[])[index]?
  | _ => none

/-- The value that a path of element hops leads to. -/
def follow? (heap : Heap) : Value → List Nat → Option Value
  | v, [] => some v
  | v, index :: path => (heap.item? v index).bind fun u => heap.follow? u path

/-- A path that leads from a value to an array. -/
def Leads (heap : Heap) (v : Value) (path : List Nat) (id : ArrayId) : Prop := heap.follow? v path = some (.array id)

/-- The second array is inside the first, directly or through other arrays. -/
def Below (heap : Heap) (id inner : ArrayId) : Prop := ∃ path, path ≠ [] ∧ heap.Leads (.array id) path inner

/-- No array that a value leads to contains itself. -/
def Unfolds (heap : Heap) (v : Value) : Prop := ∀ path id, heap.Leads v path id → ¬ heap.Below id id

/-- No array contains itself. -/
def Grounded (heap : Heap) : Prop := ∀ id, ¬ heap.Below id id

/-- A path of fewer than so many hops visits an array twice. -/
def Revisits (heap : Heap) (v : Value) (hops : Nat) : Prop :=
  ∃ p q id, q ≠ [] ∧ (p ++ q).length < hops ∧ heap.Leads v p id ∧ heap.Leads v (p ++ q) id

/-- Every array that a value leads to is one of the heap.  Names of arrays come from the heap only, so this is so of
every value that a program has (`supports_of_closed`). -/
def Supports (heap : Heap) (v : Value) : Prop := ∀ path id, heap.Leads v path id → id.index < heap.arrays.size

/-- A heap with everything of another as it was, and arrays added to it. -/
structure Extends (h h₁ : Heap) : Prop where
  size_le : h.arrays.size ≤ h₁.arrays.size
  items?_eq : ∀ id : ArrayId, id.index < h.arrays.size → h₁.items? id = h.items? id
  objects_eq : h₁.objects = h.objects

variable {heap h h₁ h₂ : Heap} {v u : Value} {path : List Nat} {id : ArrayId}

/-! ## Paths -/

theorem follow?_append : ∀ (p : List Nat) {v : Value} (q : List Nat),
    heap.follow? v (p ++ q) = (heap.follow? v p).bind fun u => heap.follow? u q
  | [], _, _ => rfl
  | index :: p, v, q => by
    rw [List.cons_append, follow?, follow?, Option.bind_assoc]
    exact congrArg _ (funext fun u => follow?_append p q)

theorem leads_nil : heap.Leads v [] id ↔ v = .array id := Option.some_inj

theorem leads_cons {index : Nat} :
    heap.Leads v (index :: path) id ↔ ∃ u, heap.item? v index = some u ∧ heap.Leads u path id :=
  Option.bind_eq_some_iff

theorem Leads.append_iff {p q : List Nat} {inner : ArrayId} (hp : heap.Leads v p id) :
    heap.Leads v (p ++ q) inner ↔ heap.Leads (.array id) q inner := by
  unfold Leads at hp ⊢
  rw [follow?_append, hp, Option.bind_some]

theorem item?_of_not_array (hv : ∀ id, v ≠ .array id) (index : Nat) : heap.item? v index = none := by
  cases v with
  | array id => exact absurd rfl (hv id)
  | _ => rfl

theorem not_leads (hv : ∀ id, v ≠ .array id) (path : List Nat) (id : ArrayId) : ¬ heap.Leads v path id := by
  intro hl
  cases path with
  | nil => exact hv id (leads_nil.1 hl)
  | cons index path =>
    obtain ⟨u, hu, -⟩ := leads_cons.1 hl
    rw [item?_of_not_array hv] at hu
    cases hu

theorem enter?_eq_some_iff {inside : List ArrayId} {items : List Value} :
    heap.enter? inside id = some items ↔ id ∉ inside ∧ items = heap.inside (.array id) := by
  unfold enter?
  by_cases h : id ∈ inside
  · simp [h]
  · simp [h, Heap.inside, eq_comm]

theorem enter?_eq_none_iff {inside : List ArrayId} : heap.enter? inside id = none ↔ id ∈ inside := by
  unfold enter?
  split <;> simp_all

theorem item?_array (index : Nat) : heap.item? (.array id) index = (heap.inside (.array id))[index]? :=
  (Array.getElem?_toList ..).symm

theorem mem_inside_iff : u ∈ heap.inside (.array id) ↔ ∃ index, heap.item? (.array id) index = some u := by
  simp only [item?_array, List.mem_iff_getElem?]

theorem index_lt_of_mem_inside (hu : u ∈ heap.inside (.array id)) : id.index < heap.arrays.size := by
  refine Nat.lt_of_not_le fun hle => ?_
  simp [inside, items?, Array.getElem?_eq_none hle] at hu

/-! ## Values of a heap -/

theorem Supports.item {index : Nat} (hs : heap.Supports v) (hu : heap.item? v index = some u) : heap.Supports u :=
  fun path id hl => hs (index :: path) id (leads_cons.2 ⟨u, hu, hl⟩)

/-- What holds of a value and passes on to the items of arrays holds of everything that the value leads to. -/
theorem supports_of_kept {P : Value → Prop} (hitems : ∀ id, P (.array id) → ∀ u ∈ heap.inside (.array id), P u)
    (harray : ∀ id, P (.array id) → id.index < heap.arrays.size) (hv : P v) : heap.Supports v := by
  intro path id hl
  induction path generalizing v with
  | nil =>
    cases leads_nil.1 hl
    exact harray id hv
  | cons index path ih =>
    obtain ⟨u, hu, hrest⟩ := leads_cons.1 hl
    by_cases ha : ∀ id, v ≠ .array id
    · rw [item?_of_not_array ha] at hu
      cases hu
    obtain ⟨a, ha⟩ := Classical.not_forall.1 ha
    cases Classical.not_not.1 ha
    exact ih (hitems a hv u (mem_inside_iff.2 ⟨index, hu⟩)) hrest

theorem supports_of_closed {R : Region} (hc : heap.Closed R) (hR : ∀ id, R (.array id) → id.index < heap.arrays.size)
    (hv : v.Within R) : heap.Supports v :=
  supports_of_kept (fun _ hid => hc _ (hid _ rfl)) (fun id hid => hR id (hid _ rfl)) hv

namespace Extends

theorem refl : Extends h h := ⟨Nat.le_refl _, fun _ _ => rfl, rfl⟩

theorem trans (h₀ : Extends h h₁) (h₁₂ : Extends h₁ h₂) : Extends h h₂ where
  size_le := Nat.le_trans h₀.size_le h₁₂.size_le
  items?_eq id hid := (h₁₂.items?_eq id (Nat.lt_of_lt_of_le hid h₀.size_le)).trans (h₀.items?_eq id hid)
  objects_eq := h₁₂.objects_eq.trans h₀.objects_eq

theorem newArray (items : Array Value) : Extends h (h.newArray items).2 where
  size_le := by simp [Heap.newArray]
  items?_eq _ hid := (Array.getElem?_push_lt hid).trans (Array.getElem?_eq_getElem hid).symm
  objects_eq := rfl

theorem inside_eq (he : Extends h h₁) (hid : id.index < h.arrays.size) :
    h₁.inside (.array id) = h.inside (.array id) := by
  simp only [inside, he.items?_eq id hid]

theorem item?_eq (he : Extends h h₁) (hs : h.Supports v) (index : Nat) : h₁.item? v index = h.item? v index := by
  cases v with
  | array id => simp only [item?, he.items?_eq id (hs [] id rfl)]
  | _ => rfl

theorem follow?_eq (he : Extends h h₁) (hs : h.Supports v) (path : List Nat) : h₁.follow? v path = h.follow? v path := by
  induction path generalizing v with
  | nil => rfl
  | cons index path ih =>
    rw [follow?, follow?, he.item?_eq hs]
    cases hu : h.item? v index with
    | none => rfl
    | some u => exact ih (hs.item hu)

end Extends

theorem copyItems?_extends {copy? : Heap → Value → Option (Value × Heap)}
    (hcopy : ∀ {h v c h₁}, copy? h v = some (c, h₁) → Extends h h₁) :
    ∀ {items : List Value} {h : Heap} {cs : List Value} {h₁ : Heap}, copyItems? copy? h items = some (cs, h₁) →
      Extends h h₁
  | [], _, _, _, heq => by
    cases heq
    exact .refl
  | v :: items, _, _, _, heq => by
    obtain ⟨⟨c, h'⟩, hc, hrest⟩ := Option.bind_eq_some_iff.1 heq
    obtain ⟨⟨cs', h''⟩, hcs, hend⟩ := Option.bind_eq_some_iff.1 hrest
    cases hend
    exact (hcopy hc).trans (copyItems?_extends hcopy hcs)

/-- **A copy changes nothing that was there.** -/
theorem copyFrom_extends : ∀ (dims : Nat) {inside : List ArrayId} {h : Heap} {v c : Value} {h₁ : Heap},
    copyFrom dims inside h v = some (c, h₁) → Extends h h₁
  | 0, _, _, _, _, _, heq => by
    cases heq
    exact .refl
  | dims + 1, _, _, v, _, _, heq => by
    cases v with
    | array id =>
      obtain ⟨items, -, hrest⟩ := Option.bind_eq_some_iff.1 heq
      obtain ⟨⟨cs, h'⟩, hcs, hend⟩ := Option.bind_eq_some_iff.1 hrest
      cases hend
      exact (copyItems?_extends (copyFrom_extends dims) hcs).trans (.newArray _)
    | _ =>
      cases heq
      exact .refl

/-! ## Paths that do not come back -/

/-- **No path comes back**: of the paths whose number of hops counts, none leads to a locked array, and none to an array
that it has been at. -/
def Clear (heap : Heap) (counts : Nat → Prop) (inside : List ArrayId) (v : Value) : Prop :=
  ∀ path id, heap.Leads v path id → counts path.length →
    id ∉ inside ∧ ∀ p q, path = p ++ q → q ≠ [] → ¬ heap.Leads v p id

variable {counts : Nat → Prop} {inside : List ArrayId}

theorem clear_of_not_array (hv : ∀ id, v ≠ .array id) : heap.Clear counts inside v :=
  fun path id hl => absurd hl (not_leads hv path id)

/-- **An array is entered, and then its items**: it is locked itself while they are visited. -/
theorem clear_array (counts : Nat → Prop) (h0 : counts 0) : heap.Clear counts inside (.array id) ↔
    id ∉ inside ∧ ∀ u ∈ heap.inside (.array id), heap.Clear (fun n => counts (n + 1)) (id :: inside) u := by
  constructor
  · intro hclear
    refine ⟨(hclear [] id rfl h0).1, fun u hu path a hl hcounts => ?_⟩
    obtain ⟨index, hu⟩ := mem_inside_iff.1 hu
    obtain ⟨hnot, hback⟩ := hclear (index :: path) a (leads_cons.2 ⟨u, hu, hl⟩) hcounts
    refine ⟨fun hmem => ?_, fun p q hpath hq hp => ?_⟩
    · rcases List.mem_cons.1 hmem with rfl | hmem
      · exact hback [] (index :: path) rfl (List.cons_ne_nil _ _) rfl
      · exact hnot hmem
    · exact hback (index :: p) q (congrArg _ hpath) hq (leads_cons.2 ⟨u, hu, hp⟩)
  · rintro ⟨hnot, hitems⟩ path a hl hcounts
    cases path with
    | nil =>
      cases leads_nil.1 hl
      exact ⟨hnot, fun p q hpath hq => absurd (List.nil_eq_append_iff.1 hpath).2 hq⟩
    | cons index path =>
      obtain ⟨u, hu, hl⟩ := leads_cons.1 hl
      obtain ⟨hout, hback⟩ := hitems u (mem_inside_iff.2 ⟨index, hu⟩) path a hl hcounts
      refine ⟨fun hmem => hout (List.mem_cons_of_mem _ hmem), fun p q hpath hq hp => ?_⟩
      cases p with
      | nil =>
        cases leads_nil.1 hp
        exact hout List.mem_cons_self
      | cons i p =>
        obtain ⟨rfl, hrest⟩ := List.cons.inj hpath
        obtain ⟨u', hu', hp⟩ := leads_cons.1 hp
        cases hu.symm.trans hu'
        exact hback p q hrest hq hp

theorem clear_iff_unfolds : heap.Clear (fun _ => True) [] v ↔ heap.Unfolds v := by
  constructor
  · rintro hclear p id hp ⟨q, hq, hback⟩
    exact (hclear (p ++ q) id (hp.append_iff.2 hback) trivial).2 p q rfl hq hp
  · intro hu path id hl _
    refine ⟨List.not_mem_nil, fun p q hpath hq hp => hu p id hp ⟨q, hq, ?_⟩⟩
    rw [hpath] at hl
    exact hp.append_iff.1 hl

theorem clear_iff_not_revisits {hops : Nat} : heap.Clear (· < hops) [] v ↔ ¬ heap.Revisits v hops := by
  constructor
  · rintro hclear ⟨p, q, id, hq, hlt, hp, hback⟩
    exact (hclear (p ++ q) id hback hlt).2 p q rfl hq hp
  · intro hr path id hl hlt
    refine ⟨List.not_mem_nil, fun p q hpath hq hp => hr ⟨p, q, id, hq, ?_, hp, ?_⟩⟩
    · rwa [← hpath]
    · rwa [← hpath]

theorem Unfolds.not_revisits (hu : heap.Unfolds v) (hops : Nat) : ¬ heap.Revisits v hops := by
  rintro ⟨p, q, id, hq, -, hp, hback⟩
  exact hu p id hp ⟨q, hq, hp.append_iff.1 hback⟩

theorem grounded_of_arrays (h : heap.arrays = #[]) : heap.Grounded := by
  rintro id ⟨path, hne, hl⟩
  cases path with
  | nil => exact hne rfl
  | cons index path =>
    obtain ⟨u, hu, -⟩ := leads_cons.1 hl
    have hlt := index_lt_of_mem_inside (mem_inside_iff.2 ⟨index, hu⟩)
    rw [h] at hlt
    exact absurd hlt (Nat.not_lt_zero _)

theorem Grounded.unfolds (hg : heap.Grounded) (v : Value) : heap.Unfolds v := fun _ id _ => hg id

/-! ## Showing -/

theorem isSome_mapM_iff {α β : Type} {f : α → Option β} {l : List α} :
    (l.mapM f).isSome ↔ ∀ a ∈ l, (f a).isSome := by
  refine ⟨fun h a ha => ?_, isSome_mapM⟩
  obtain ⟨found, hfound⟩ := Option.isSome_iff_exists.1 h
  obtain ⟨b, hb, -⟩ := (@exists_mapM_forall _ _ f (fun _ => True) l).1 ⟨found, hfound, fun _ _ => trivial⟩ a ha
  rw [hb]
  rfl

/-- A value is shown just if no path from it comes back, with fuel for as many arrays as a traversal can be inside of:
those it is inside of are different arrays of the heap. -/
theorem shown_isSome_iff {join : List String → String} {show? : Nat → List ArrayId → Value → Option String}
    (henters : Graft.Enters heap join show?)
    (hplain : ∀ {fuel inside v}, (∀ id, v ≠ .array id) → (show? fuel inside v).isSome) :
    ∀ {fuel : Nat} {inside : List ArrayId} {v : Value}, inside.Nodup →
      (∀ id ∈ inside, id.index < heap.arrays.size) → heap.arrays.size < fuel + inside.length →
        ((show? fuel inside v).isSome ↔ heap.Clear (fun _ => True) inside v) := by
  intro fuel
  induction fuel with
  | zero =>
    intro inside v hn hlt hfuel
    have := Graft.length_le_of_nodup hn hlt
    omega
  | succ fuel ih =>
    intro inside v hn hlt hfuel
    by_cases hv : ∀ id, v ≠ .array id
    · exact iff_of_true (hplain hv) (clear_of_not_array hv)
    obtain ⟨id, hid⟩ := Classical.not_forall.1 hv
    cases Classical.not_not.1 hid
    rw [henters, clear_array _ trivial]
    cases henter : heap.enter? inside id with
    | none => simp [enter?_eq_none_iff.1 henter]
    | some items =>
      obtain ⟨hnot, rfl⟩ := enter?_eq_some_iff.1 henter
      rw [Option.bind_some, Option.isSome_map, isSome_mapM_iff, and_iff_right hnot]
      refine forall₂_congr fun u hu => ih (List.nodup_cons.2 ⟨hnot, hn⟩)
        (List.forall_mem_cons.2 ⟨index_lt_of_mem_inside hu, hlt⟩) ?_
      rw [List.length_cons]
      omega

/-! ## Copying -/

/-- Items are copied just if each can be: the copies made before it leave everything as it was. -/
theorem copyItems?_isSome_iff {copy? : Heap → Value → Option (Value × Heap)} {P : Value → Prop}
    (hcopy : ∀ {h₁ v c h₂}, copy? h₁ v = some (c, h₂) → Extends h₁ h₂) :
    ∀ {items : List Value} {h₁ : Heap}, (∀ v ∈ items, ∀ {h₁}, Extends h h₁ → ((copy? h₁ v).isSome ↔ P v)) →
      Extends h h₁ → ((copyItems? copy? h₁ items).isSome ↔ ∀ v ∈ items, P v)
  | [], _, _, _ => by simp [copyItems?]
  | v :: items, h₁, hP, he => by
    obtain ⟨hv, hitems⟩ := List.forall_mem_cons.1 hP
    rw [List.forall_mem_cons, ← hv he, copyItems?]
    cases hc : copy? h₁ v with
    | none => simp
    | some c =>
      have ih := copyItems?_isSome_iff hcopy hitems (he.trans (hcopy hc))
      rw [← ih]
      cases hcs : copyItems? copy? c.2 items <;> simp [hcs]

/-- **A value is copied just if no path of fewer hops than levels comes back.** -/
theorem copyFrom_isSome_iff : ∀ (dims : Nat) {inside : List ArrayId} {h₁ : Heap} {v : Value}, Extends h h₁ →
    h.Supports v → ((copyFrom dims inside h₁ v).isSome ↔ h.Clear (· < dims) inside v)
  | 0, inside, h₁, v, _, _ => by
    refine iff_of_true rfl fun path id _ hlt => absurd hlt (Nat.not_lt_zero _)
  | dims + 1, inside, h₁, v, he, hs => by
    by_cases hv : ∀ id, v ≠ .array id
    · refine iff_of_true ?_ (clear_of_not_array hv)
      cases v with
      | array id => exact absurd rfl (hv id)
      | _ => rfl
    obtain ⟨id, hid⟩ := Classical.not_forall.1 hv
    cases Classical.not_not.1 hid
    rw [clear_array (· < dims + 1) (Nat.zero_lt_succ dims), copyFrom]
    simp only [Nat.add_lt_add_iff_right]
    cases henter : h₁.enter? inside id with
    | none => simp [enter?_eq_none_iff.1 henter]
    | some items =>
      obtain ⟨hnot, rfl⟩ := enter?_eq_some_iff.1 henter
      rw [and_iff_right hnot, he.inside_eq (hs [] id rfl)]
      have hitem : ∀ u ∈ h.inside (.array id), ∀ {h₁}, Extends h h₁ →
          ((copyFrom dims (id :: inside) h₁ u).isSome ↔ h.Clear (· < dims) (id :: inside) u) := by
        intro u hu h₁ he
        obtain ⟨index, hu⟩ := mem_inside_iff.1 hu
        exact copyFrom_isSome_iff dims he (hs.item hu)
      rw [← copyItems?_isSome_iff (copyFrom_extends dims) hitem he]
      cases hcs : copyItems? (copyFrom dims (id :: inside)) h₁ (h.inside (.array id)) <;> simp [hcs]

/-! ## The traversals -/

theorem display?_isSome_iff : (heap.display? v).isSome ↔ heap.Unfolds v := by
  rw [← clear_iff_unfolds]
  refine shown_isSome_iff (Graft.enters_display heap) (fun {fuel _ v} hv => ?_) List.nodup_nil (List.forall_mem_nil _)
    (Nat.lt_succ_self _)
  cases v with
  | array id => exact absurd rfl (hv id)
  | bool b => cases b <;> cases fuel <;> rfl
  | _ => cases fuel <;> rfl

theorem inspect?_isSome_iff : (heap.inspect? v).isSome ↔ heap.Unfolds v := by
  rw [← clear_iff_unfolds]
  refine shown_isSome_iff (Graft.enters_inspect heap) (fun {fuel _ v} hv => ?_) List.nodup_nil (List.forall_mem_nil _)
    (Nat.lt_succ_self _)
  cases v with
  | array id => exact absurd rfl (hv id)
  | bool b => cases b <;> cases fuel <;> rfl
  | _ => cases fuel <;> rfl

theorem copy?_isSome_iff (hs : heap.Supports v) (dims : Nat) :
    (heap.copy? dims v).isSome ↔ ¬ heap.Revisits v dims :=
  (copyFrom_isSome_iff dims .refl hs).trans clear_iff_not_revisits

/-- **When traversals come to an end.**  A value can be shown, to a program as to a debugger, just if no array that it
leads to contains itself.  It can be copied to so many levels just if no path of fewer hops visits an array twice.  That
paths meet in an array is no harm: without an array that contains itself everything comes to an end. -/
theorem traversals_end_iff (heap : Heap) (v : Value) :
    ((heap.display? v).isSome ↔ ∀ path id, heap.Leads v path id → ¬ heap.Below id id) ∧
    ((heap.inspect? v).isSome ↔ ∀ path id, heap.Leads v path id → ¬ heap.Below id id) ∧
    (heap.Supports v → ∀ dims, (heap.copy? dims v).isSome ↔ ¬ heap.Revisits v dims) ∧
    (heap.Supports v → (∀ path id, heap.Leads v path id → ¬ heap.Below id id) →
      (heap.display? v).isSome ∧ (heap.inspect? v).isSome ∧ ∀ dims, (heap.copy? dims v).isSome) := by
  refine ⟨display?_isSome_iff, inspect?_isSome_iff, copy?_isSome_iff, fun hs hu => ?_⟩
  exact ⟨display?_isSome_iff.2 hu, inspect?_isSome_iff.2 hu, fun dims =>
    (copy?_isSome_iff hs dims).2 (Unfolds.not_revisits hu dims)⟩

/-- Three arrays: the first holds the second twice, and the third holds itself. -/
def sharedAndLooped : Heap where
  arrays := #[#[.array ⟨1⟩, .array ⟨1⟩], #[.bool true], #[.array ⟨2⟩]]

theorem supports_sharedAndLooped {id : ArrayId} (hid : id.index < 3) : sharedAndLooped.Supports (.array id) := by
  refine supports_of_kept (P := fun v => ∀ id, v = .array id → id.index < 3) ?_ (fun id h => h id rfl) ?_
  · rintro ⟨index⟩ hlt u hu id rfl
    have hindex := hlt _ rfl
    interval_cases index <;> simp [inside, items?, sharedAndLooped] at hu <;> subst hu <;> decide
  · rintro _ ⟨⟩
    exact hid

/-- The shared array is shown and copied to any depth; the one that holds itself is not shown, and is copied to one
level but not to two. -/
theorem shared_ends_looped_waits :
    ((sharedAndLooped.display? (.array ⟨0⟩)).isSome ∧ ∀ dims, (sharedAndLooped.copy? dims (.array ⟨0⟩)).isSome) ∧
    ¬ (sharedAndLooped.display? (.array ⟨2⟩)).isSome ∧ (sharedAndLooped.copy? 1 (.array ⟨2⟩)).isSome ∧
    ¬ (sharedAndLooped.copy? 2 (.array ⟨2⟩)).isSome := by
  have hback : sharedAndLooped.Leads (.array ⟨2⟩) [0] ⟨2⟩ := rfl
  obtain ⟨hshow, -, -, hends⟩ := traversals_end_iff sharedAndLooped (.array ⟨0⟩)
  obtain ⟨hloop, -, hcopy, -⟩ := traversals_end_iff sharedAndLooped (.array ⟨2⟩)
  obtain ⟨hd, -, hc⟩ := hends (supports_sharedAndLooped (by decide)) (hshow.1 (by decide))
  refine ⟨⟨hd, hc⟩, fun h => ?_, ?_, fun h => ?_⟩
  · exact hloop.1 h [] ⟨2⟩ rfl ⟨[0], List.cons_ne_nil _ _, hback⟩
  · refine (hcopy (supports_sharedAndLooped (by decide)) 1).2 ?_
    rintro ⟨p, q, id, hq, hlt, -⟩
    rw [List.length_append] at hlt
    have := List.length_pos_iff.2 hq
    omega
  · exact (hcopy (supports_sharedAndLooped (by decide)) 2).1 h ⟨[], [0], ⟨2⟩, List.cons_ne_nil _ _, by decide, rfl, hback⟩

end Heap

end PseudoVm
