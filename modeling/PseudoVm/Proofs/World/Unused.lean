import Mathlib.Data.List.Flatten
import PseudoVm.Proofs.World.ReleaseSafety
/-!
# World.Unused: which references a tally counts

A tally starts from every reference there is and takes back those that unused storage holds.  What is unused does not
depend on the order: it is the storage that nothing outside refers to, nor any storage but unused one
(`Heap.Unused`).  What is left counts the references from outside and from the storage in use, exactly
(`Heap.tally_exact`), and more fuel makes no difference (`Heap.Exact.letGoFrom_of_le`).
-/
namespace PseudoVm

namespace Heap

/-- **Storage that nothing uses**: no value outside refers to it, and no storage does but such as is unused itself. -/
inductive Unused (heap : Heap) (held : List Value) : Storage → Prop
  | mk {c} (hc : c ∈ heap.cells) (hheld : ∀ v ∈ held, v.storage? ≠ some c)
      (hinside : ∀ d, ∀ v ∈ heap.inside d, v.storage? = some c → Unused heap held d) : Unused heap held c

theorem nodup_cells (heap : Heap) : heap.cells.Nodup := by
  refine List.nodup_append.2 ⟨?_, ?_, ?_⟩
  · exact List.Pairwise.map _ (fun i j hij he => hij (by cases he; rfl)) List.nodup_range
  · exact List.Pairwise.map _ (fun i j hij he => hij (by cases he; rfl)) List.nodup_range
  · intro a ha b hb
    obtain ⟨i, -, rfl⟩ := List.mem_map.1 ha
    obtain ⟨j, -, rfl⟩ := List.mem_map.1 hb
    exact nofun

/-- **What holds while values are let go, if the counts are right**: each is the number of references from outside, from
the values still to be let go and from the storage in use; what is in use counts some, and all else is unused. -/
structure Exact (heap : Heap) (held : List Value) (t : Tally) (live : List Storage) (work : List Value) : Prop where
  covered : ∀ c ∈ heap.cells, t.Covers c
  count : ∀ s, t.Covers s → t.of s = refs s held + refs s work + refs s (live.flatMap heap.inside)
  sub : live.Sublist heap.cells
  used : ∀ c ∈ live, 0 < t.of c
  gone : ∀ c ∈ heap.cells, c ∉ live → t.of c = 0
  unused : ∀ c ∈ heap.cells, c ∉ live → heap.Unused held c

theorem Unused.mono {heap : Heap} {held held' : List Value} (hsub : held' ⊆ held) {c : Storage}
    (h : heap.Unused held c) : heap.Unused held' c := by
  induction h with
  | mk hc hheld _ ih => exact .mk hc (fun v hv => hheld v (hsub hv)) ih

theorem exists_mem_of_refs_pos {s : Storage} {vs : List Value} (h : 0 < refs s vs) : ∃ v ∈ vs, v.storage? = some s := by
  obtain ⟨v, hv, hs⟩ := List.countP_pos_iff.1 h
  exact ⟨v, hv, eq_of_beq hs⟩

theorem refs_eq_zero {s : Storage} {vs : List Value} : refs s vs = 0 ↔ ∀ v ∈ vs, v.storage? ≠ some s := by
  simp only [refs, List.countP_eq_zero, beq_iff_eq, ne_eq]

namespace Exact

variable {heap : Heap} {held work : List Value} {t : Tally} {live : List Storage}

/-- How many values may still be let go. -/
def rest (heap : Heap) (live : List Storage) (work : List Value) : Nat :=
  work.length + (live.flatMap heap.inside).length

theorem skip {v : Value} (h : Exact heap held t live (v :: work)) (hv : v.storage? = none) :
    Exact heap held t live work :=
  { h with count := fun s hs => by simpa [refs_cons, hv] using h.count s hs }

theorem lower {v : Value} {s : Storage} (h : Exact heap held t live (v :: work)) (hv : v.storage? = some s)
    (hz : (t.adjust (· - 1) s).of s ≠ 0) : Exact heap held (t.adjust (· - 1) s) live work where
  covered c hc := (Tally.covers_adjust t _ s c).2 (h.covered c hc)
  count s' hs' := by
    have := h.count s' ((Tally.covers_adjust t _ s s').1 hs')
    rw [refs_cons, hv] at this
    rw [Tally.of_lower]
    simp only [Option.some.injEq] at this
    omega
  sub := h.sub
  used c hc := by
    rw [Tally.of_lower]
    by_cases hsc : s = c
    · subst hsc
      rw [Tally.of_lower] at hz
      omega
    · rw [if_neg hsc]
      exact h.used c hc
  gone c hc hn := by rw [Tally.of_lower, h.gone c hc hn, Nat.zero_sub]
  unused := h.unused

theorem inside_eq_nil {v : Value} {s : Storage} (h : Exact heap held t live (v :: work)) (hv : v.storage? = some s)
    (hm : s ∉ live) : heap.inside s = [] := by
  refine Classical.byContradiction fun hne => ?_
  have hc := mem_cells hne
  have hpos := h.count s (h.covered s hc)
  rw [h.gone s hc hm, refs_cons, if_pos hv] at hpos
  omega

theorem free {v : Value} {s : Storage} (h : Exact heap held t live (v :: work)) (hv : v.storage? = some s)
    (hz : (t.adjust (· - 1) s).of s = 0) :
    Exact heap held (t.adjust (· - 1) s) (live.erase s) (heap.inside s ++ work) := by
  have hcount : ∀ s', t.Covers s' → (t.adjust (· - 1) s).of s' =
      refs s' held + refs s' work + refs s' (live.flatMap heap.inside) := by
    intro s' hs'
    have := h.count s' hs'
    rw [refs_cons, hv] at this
    rw [Tally.of_lower]
    simp only [Option.some.injEq] at this
    omega
  refine ⟨fun c hc => (Tally.covers_adjust t _ s c).2 (h.covered c hc), fun s' hs' => ?_,
    List.erase_sublist.trans h.sub, fun c hc => ?_, fun c hc hn => ?_, fun c hc hn => ?_⟩
  · rw [hcount s' ((Tally.covers_adjust t _ s s').1 hs'), refs_append]
    by_cases hm : s ∈ live
    · have hp : refs s' (live.flatMap heap.inside) = refs s' ((s :: live.erase s).flatMap heap.inside) :=
        ((List.perm_cons_erase hm).flatMap_right heap.inside).countP_eq _
      rw [hp, List.flatMap_cons, refs_append]
      omega
    · rw [h.inside_eq_nil hv hm, List.erase_of_not_mem hm]
      simp [refs]
  · have hne : c ≠ s := fun he => (heap.nodup_cells.sublist h.sub).not_mem_erase (he ▸ hc)
    rw [Tally.of_lower, if_neg hne.symm]
    exact h.used c (List.mem_of_mem_erase hc)
  · by_cases hcs : c = s
    · rw [hcs]
      exact hz
    · rw [Tally.of_lower, if_neg (Ne.symm hcs), h.gone c hc fun hm => hn ((List.mem_erase_of_ne hcs).2 hm)]
  · by_cases hcs : c = s
    · -- Whatever still refers to it was freed before.
      subst hcs
      have hnone := hcount c (h.covered c hc)
      rw [hz] at hnone
      refine .mk hc (refs_eq_zero.1 (by omega)) fun d v hvd hvc => h.unused d (mem_cells (List.ne_nil_of_mem hvd)) ?_
      intro hd
      exact refs_eq_zero.1 (show refs c (live.flatMap heap.inside) = 0 by omega) v
        (List.mem_flatMap.2 ⟨d, hd, hvd⟩) hvc
    · exact h.unused c hc fun hm => hn ((List.mem_erase_of_ne hcs).2 hm)

theorem rest_free {v : Value} {s : Storage} (h : Exact heap held t live (v :: work)) (hv : v.storage? = some s) :
    rest heap (live.erase s) (heap.inside s ++ work) < rest heap live (v :: work) := by
  unfold rest
  by_cases hm : s ∈ live
  · have hp : (live.flatMap heap.inside).length = ((s :: live.erase s).flatMap heap.inside).length :=
      ((List.perm_cons_erase hm).flatMap_right heap.inside).length_eq
    rw [hp, List.flatMap_cons, List.length_append, List.length_append, List.length_cons]
    omega
  · rw [h.inside_eq_nil hv hm, List.erase_of_not_mem hm, List.nil_append, List.length_cons]
    omega

/-- **One value is let go**, and fewer are left. -/
theorem step {v : Value} (h : Exact heap held t live (v :: work)) (freed : List Storage) :
    ∃ t' freed' live' work', Exact heap held t' live' work' ∧ rest heap live' work' < rest heap live (v :: work) ∧
      ∀ fuel, heap.letGoFrom (fuel + 1) t freed (v :: work) = heap.letGoFrom fuel t' freed' work' := by
  have hless : rest heap live work < rest heap live (v :: work) := by
    unfold rest
    rw [List.length_cons]
    omega
  cases hv : v.storage? with
  | none => exact ⟨t, freed, live, work, h.skip hv, hless, fun fuel => by rw [Heap.letGoFrom, hv]⟩
  | some s =>
    by_cases hz : (t.adjust (· - 1) s).of s = 0
    · refine ⟨_, s :: freed, _, _, h.free hv hz, h.rest_free hv, fun fuel => ?_⟩
      rw [Heap.letGoFrom, hv]
      exact if_pos hz
    · refine ⟨_, freed, _, _, h.lower hv hz, hless, fun fuel => ?_⟩
      rw [Heap.letGoFrom, hv]
      exact if_neg hz

/-- **With fuel for every value that may be let go, all are**, and more fuel makes no difference. -/
theorem letGoFrom : ∀ (fuel : Nat) {t : Tally} {live : List Storage} {work : List Value} (freed : List Storage),
    Exact heap held t live work → rest heap live work < fuel →
      (∃ live', Exact heap held (heap.letGoFrom fuel t freed work).1 live' []) ∧
      ∀ fuel', fuel ≤ fuel' → heap.letGoFrom fuel' t freed work = heap.letGoFrom fuel t freed work
  | 0, _, _, _, _, _, hf => absurd hf (Nat.not_lt_zero _)
  | fuel + 1, t, live, work, freed, h, hf => by
    cases work with
    | nil =>
      refine ⟨⟨live, h⟩, fun fuel' hle => ?_⟩
      obtain ⟨k, rfl⟩ : ∃ k, fuel' = k + 1 := ⟨fuel' - 1, by omega⟩
      rfl
    | cons v work =>
      obtain ⟨t', freed', live', work', h', hless, hstep⟩ := h.step freed
      obtain ⟨hend, hmore⟩ := letGoFrom fuel freed' h' (by omega)
      rw [hstep]
      refine ⟨hend, fun fuel' hle => ?_⟩
      obtain ⟨k, rfl⟩ : ∃ k, fuel' = k + 1 := ⟨fuel' - 1, by omega⟩
      rw [hstep, hmore k (Nat.le_of_succ_le_succ hle)]

theorem not_mem_of_unused (h : Exact heap held t live []) {c : Storage} (hc : heap.Unused held c) : c ∉ live := by
  induction hc with
  | @mk c hcells hheld _ ih =>
    intro hm
    have hpos := h.used c hm
    rw [h.count c (h.covered c hcells), refs_eq_zero.2 hheld, show refs c [] = 0 from rfl, Nat.zero_add] at hpos
    obtain ⟨v, hv, hvc⟩ := exists_mem_of_refs_pos hpos
    obtain ⟨d, hd, hvd⟩ := List.mem_flatMap.1 hv
    exact ih d v hvd hvc hd

theorem mem_live_iff (h : Exact heap held t live []) {c : Storage} :
    c ∈ live ↔ c ∈ heap.cells ∧ ¬ heap.Unused held c :=
  ⟨fun hm => ⟨h.sub.subset hm, fun hu => h.not_mem_of_unused hu hm⟩,
    fun ⟨hc, hu⟩ => Classical.byContradiction fun hm => hu (h.unused c hc hm)⟩

end Exact

/-! ## The tally -/

theorem flatMap_range_getD {α β : Type} (a : Array (Array α)) (f : Array α → List β) :
    (List.range a.size).flatMap (fun i => f ((a[i]?).getD #[])) = a.toList.flatMap f := by
  have h : (List.range a.size).map (fun i => (a[i]?).getD #[]) = a.toList := by
    refine List.ext_getElem (by simp) fun i hi _ => ?_
    simp only [List.length_map, List.length_range] at hi
    simp [hi]
  rw [← h, List.flatMap_map]

theorem length_flatMap_le {α β : Type} {f : Array α → List β} (hf : ∀ a, (f a).length ≤ a.size) :
    ∀ (l : List (Array α)) (n : Nat), n + (l.flatMap f).length ≤ l.foldl (fun n a => n + a.size) n
  | [], _ => Nat.le_refl _
  | a :: l, n => by
    have := length_flatMap_le hf l (n + a.size)
    have := hf a
    rw [List.flatMap_cons, List.length_append, List.foldl_cons]
    omega

theorem length_flatMap_inside_le (heap : Heap) : (heap.cells.flatMap heap.inside).length ≤ heap.weight := by
  have harrays := length_flatMap_le (f := Array.toList) (fun a : Array Value => Nat.le_refl _) heap.arrays.toList 0
  have hobjects := length_flatMap_le (f := fun a : Array (Option Value) => a.toList.filterMap (·))
    (fun a => List.length_filterMap_le _ _) heap.objects.toList 0
  rw [cells, List.flatMap_append, List.length_append, List.flatMap_map, List.flatMap_map, weight,
    ← Array.foldl_toList, ← Array.foldl_toList]
  have ha : (List.range heap.arrays.size).flatMap (fun i => heap.inside (.array ⟨i⟩)) = _ :=
    flatMap_range_getD heap.arrays Array.toList
  have ho : (List.range heap.objects.size).flatMap (fun i => heap.inside (.object ⟨i⟩)) = _ :=
    flatMap_range_getD heap.objects fun a => a.toList.filterMap (·)
  rw [ha, ho]
  omega

theorem rest_lt_fuel {heap : Heap} {live : List Storage} (h : live.Sublist heap.cells) (work : List Value) :
    Exact.rest heap live work < heap.weight + work.length + 1 := by
  have hle := (h.flatMap heap.inside).length_le
  have := heap.length_flatMap_inside_le
  unfold Exact.rest
  omega

theorem exact_census (heap : Heap) (files : Nat) (held : List Value) :
    Exact heap held (heap.census files held) (heap.cells.filter fun c => !((heap.census files held).of c = 0))
      ((heap.cells.filter ((heap.census files held).of · = 0)).flatMap heap.inside) := by
  have hb := heap.balanced_census files held
  have hcovers : ∀ c ∈ heap.cells, (heap.census files held).Covers c := by
    intro c hc
    have hm := (mem_cells_iff heap c).1 hc
    rw [covers_census, Tally.covers_zero]
    cases c with
    | array id | object id => exact hm
    | file id => exact hm.elim
  have hzero : ∀ c ∈ heap.cells, c ∉ heap.cells.filter (fun c => !((heap.census files held).of c = 0)) →
      (heap.census files held).of c = 0 := fun c hc hn => by simpa [hc] using hn
  refine ⟨hcovers, fun s hs => ?_, List.filter_sublist, fun c hc => ?_, hzero, fun c hc hn => ?_⟩
  · rw [of_census hs]
    have hp := ((List.filter_append_perm (fun c => (heap.census files held).of c = 0) heap.cells).flatMap_right
      heap.inside).countP_eq (fun v : Value => v.storage? == some s)
    rw [List.flatMap_append, List.countP_append] at hp
    unfold refs
    omega
  · have := (List.mem_filter.1 hc).2
    simp only [Bool.not_eq_true', decide_eq_false_iff_not] at this
    omega
  · have hz := hzero c hc hn
    rw [of_census (hcovers c hc)] at hz
    refine .mk hc (refs_eq_zero.1 (by omega)) fun d v hvd hvc => ?_
    have hnone := refs_eq_zero.1 (show refs c (heap.cells.flatMap heap.inside) = 0 by omega)
    exact absurd hvc (hnone v (List.mem_flatMap.2 ⟨d, mem_cells (List.ne_nil_of_mem hvd), hvd⟩))

/-- **A tally counts the references from outside and from the storage in use**, and no others. -/
theorem exact_tally (heap : Heap) (files : Nat) (held : List Value) :
    ∃ live, Exact heap held (heap.tally files held) live [] := by
  have h := heap.exact_census files held
  rw [tally_eq]
  exact (h.letGoFrom _ [] (rest_lt_fuel h.sub _)).1

/-- Values let go of from a tally, which counted them too: fuel for all of them is enough. -/
theorem letGo_tally_of_le {heap : Heap} {files fuel : Nat} {held loose : List Value}
    (hf : heap.weight + loose.length + 1 ≤ fuel) :
    heap.letGoFrom fuel (heap.tally files (loose ++ held)) [] loose =
      heap.letGo (heap.tally files (loose ++ held)) loose := by
  obtain ⟨live, h⟩ := heap.exact_tally files (loose ++ held)
  have h' : Exact heap held (heap.tally files (loose ++ held)) live loose := by
    refine ⟨h.covered, fun s hs => ?_, h.sub, h.used, h.gone, fun c hc hn =>
      (h.unused c hc hn).mono (List.subset_append_right _ _)⟩
    have hcount := h.count s hs
    rw [refs_append, show refs s [] = 0 from rfl] at hcount
    omega
  exact (h'.letGoFrom _ [] (rest_lt_fuel h.sub loose)).2 fuel hf

end Heap

end PseudoVm
