import PseudoVm.World.Release
/-!
# World.ReleaseSafety: only what nothing refers to is released

Letting go of values takes references back and frees storage whose last one is gone.  Along the way every piece of
storage counts at least the references of the values that stay, of those still to be let go, and of the storage that is
not freed (`Heap.Balanced`), so a file that values which stay lead to, directly or through arrays and objects, is not
released (`World.letGo_eq`).
-/
namespace PseudoVm

/-- **What values lead to**: their own storage, and what is inside storage that they lead to. -/
inductive Heap.Reaches (heap : Heap) (held : List Value) : Storage → Prop
  | held {v s} (hv : v ∈ held) (hs : v.storage? = some s) : Reaches heap held s
  | inside {c v s} (hc : Reaches heap held c) (hv : v ∈ heap.inside c) (hs : v.storage? = some s) : Reaches heap held s

/-- How many of some values refer to a piece of storage. -/
def refs (s : Storage) (vs : List Value) : Nat := vs.countP fun v => v.storage? == some s

@[simp] theorem refs_append (s : Storage) (as bs : List Value) : refs s (as ++ bs) = refs s as + refs s bs :=
  List.countP_append

theorem refs_cons (s : Storage) (v : Value) (vs : List Value) :
    refs s (v :: vs) = refs s vs + if v.storage? = some s then 1 else 0 := by
  simp only [refs, List.countP_cons, beq_iff_eq]

theorem refs_pos {s : Storage} {v : Value} {vs : List Value} (hv : v ∈ vs) (hs : v.storage? = some s) :
    0 < refs s vs :=
  List.countP_pos_iff.2 ⟨v, hv, by rw [hs]; exact beq_self_eq_true _⟩

namespace Tally

/-- Storage that a tally has a count for. -/
def Covers (t : Tally) : Storage → Prop
  | .array id => id.index < t.arrays.size
  | .object id => id.index < t.objects.size
  | .file id => id.index < t.files.size

@[simp] theorem covers_adjust (t : Tally) (f : Nat → Nat) (s s' : Storage) :
    (t.adjust f s).Covers s' ↔ t.Covers s' := by
  cases s <;> cases s' <;> simp [adjust, Covers]

theorem of_adjust_self {t : Tally} {s : Storage} (h : t.Covers s) (f : Nat → Nat) :
    (t.adjust f s).of s = f (t.of s) := by
  cases s <;> simp only [Covers] at h <;>
    simp [adjust, of, Array.getD_eq_getD_getElem?, Array.getElem?_modify, Array.getElem?_eq_getElem h]

theorem of_adjust_of_ne (t : Tally) (f : Nat → Nat) {s s' : Storage} (h : s ≠ s') : (t.adjust f s).of s' = t.of s' := by
  cases s <;> cases s' <;> simp only [adjust, of]
  all_goals
    -- Storage of the same kind differs in its index.
    rw [Array.getD_eq_getD_getElem?, Array.getElem?_modify, if_neg, ← Array.getD_eq_getD_getElem?]
    intro he
    exact h (by rename_i a b; cases a; cases b; cases he; rfl)

theorem of_eq_zero {t : Tally} {s : Storage} (h : ¬ t.Covers s) : t.of s = 0 := by
  cases s <;> simp only [Covers] at h <;> simp [of, h]

theorem of_lower (t : Tally) (s s' : Storage) :
    (t.adjust (· - 1) s).of s' = t.of s' - if s = s' then 1 else 0 := by
  by_cases hs : s = s'
  · subst hs
    by_cases hc : t.Covers s
    · simp [of_adjust_self hc]
    · rw [of_eq_zero hc, of_eq_zero (by rwa [covers_adjust])]
      simp
  · simp [of_adjust_of_ne t _ hs, hs]

theorem covers_count (t : Tally) (v : Value) (s : Storage) : (t.count v).Covers s ↔ t.Covers s := by
  unfold count
  split
  · exact covers_adjust t _ _ s
  · exact Iff.rfl

theorem of_count {t : Tally} {s : Storage} (h : t.Covers s) (v : Value) :
    (t.count v).of s = t.of s + if v.storage? = some s then 1 else 0 := by
  unfold count
  split
  · rename_i s' hv
    by_cases hs : s' = s
    · subst hs
      simp [of_adjust_self h, hv]
    · simp [of_adjust_of_ne t _ hs, hv, hs]
  · rename_i hv
    simp [hv]

theorem covers_foldl_count : ∀ (vs : List Value) (t : Tally) (s : Storage), (vs.foldl count t).Covers s ↔ t.Covers s
  | [], _, _ => Iff.rfl
  | v :: vs, t, s => by
    rw [List.foldl_cons, covers_foldl_count vs, covers_count]

theorem of_foldl_count {s : Storage} : ∀ (vs : List Value) {t : Tally}, t.Covers s →
    (vs.foldl count t).of s = t.of s + refs s vs
  | [], t, _ => rfl
  | v :: vs, t, h => by
    rw [List.foldl_cons, of_foldl_count vs ((covers_count t v s).2 h), of_count h, refs_cons]
    omega

theorem covers_zero (arrays objects files : Nat) (s : Storage) :
    (zero arrays objects files).Covers s ↔ match s with
      | .array id => id.index < arrays
      | .object id => id.index < objects
      | .file id => id.index < files := by
  cases s <;> simp [zero, Covers]

theorem of_zero (arrays objects files : Nat) (s : Storage) : (zero arrays objects files).of s = 0 := by
  cases s <;> simp [zero, of, Array.getD_eq_getD_getElem?, Array.getElem?_replicate] <;> split <;> rfl

end Tally

namespace Heap

theorem mem_cells_iff (heap : Heap) (c : Storage) :
    c ∈ heap.cells ↔ match c with
      | .array id => id.index < heap.arrays.size
      | .object id => id.index < heap.objects.size
      | .file _ => False := by
  cases c with
  | array id | object id =>
    simp only [cells, List.mem_append, List.mem_map, List.mem_range, reduceCtorEq, and_false, exists_const, or_false,
      false_or]
    exact ⟨fun ⟨i, hi, he⟩ => by cases he; exact hi, fun hi => ⟨id.index, hi, rfl⟩⟩
  | file id => simp [cells]

theorem mem_cells {heap : Heap} {c : Storage} (h : heap.inside c ≠ []) : c ∈ heap.cells := by
  rw [mem_cells_iff]
  cases c with
  | array id => exact Nat.lt_of_not_le fun hn => h (by simp [inside, items?, Array.getElem?_eq_none hn])
  | object id => exact Nat.lt_of_not_le fun hn => h (by simp [inside, fields?, Array.getElem?_eq_none hn])
  | file id => exact absurd rfl h

/-- **What holds while values are let go**: each count is enough for the references from outside, from the values still
to be let go and from storage that is not freed, and whatever was freed counts none. -/
structure Balanced (heap : Heap) (held : List Value) (t : Tally) (freed live : List Storage) (work : List Value) :
    Prop where
  covered : ∀ c, heap.inside c ≠ [] → t.Covers c
  enough : ∀ s, t.Covers s → refs s held + refs s work + refs s (live.flatMap heap.inside) ≤ t.of s
  gone : ∀ c, c ∉ live → heap.inside c ≠ [] → t.of c = 0
  freed : ∀ s ∈ freed, t.of s = 0

namespace Balanced

variable {heap : Heap} {held work : List Value} {t : Tally} {freed live : List Storage}

theorem drop_work (h : Balanced heap held t freed live work) : Balanced heap held t freed live [] :=
  ⟨h.covered, fun s hs => Nat.le_trans (by simp [refs]) (h.enough s hs), h.gone, h.freed⟩

theorem skip {v : Value} (h : Balanced heap held t freed live (v :: work)) (hv : v.storage? = none) :
    Balanced heap held t freed live work :=
  ⟨h.covered, fun s hs => by simpa [refs_cons, hv] using h.enough s hs, h.gone, h.freed⟩

theorem lower {v : Value} {s : Storage} (h : Balanced heap held t freed live (v :: work)) (hv : v.storage? = some s) :
    Balanced heap held (t.adjust (· - 1) s) freed live work where
  covered c hc := (Tally.covers_adjust t _ s c).2 (h.covered c hc)
  enough s' hs' := by
    have := h.enough s' ((Tally.covers_adjust t _ s s').1 hs')
    rw [refs_cons, hv] at this
    rw [Tally.of_lower]
    simp only [Option.some.injEq] at this
    omega
  gone c hc hi := by rw [Tally.of_lower, h.gone c hc hi, Nat.zero_sub]
  freed s' hs' := by rw [Tally.of_lower, h.freed s' hs', Nat.zero_sub]

theorem free {s : Storage} (h : Balanced heap held t freed live work) (hs : t.of s = 0)
    (hi : s ∉ live → heap.inside s = []) :
    Balanced heap held t (s :: freed) (live.erase s) (heap.inside s ++ work) where
  covered := h.covered
  enough s' hs' := by
    have he := h.enough s' hs'
    by_cases hm : s ∈ live
    · have hp : refs s' (live.flatMap heap.inside) = refs s' ((s :: live.erase s).flatMap heap.inside) :=
        ((List.perm_cons_erase hm).flatMap_right heap.inside).countP_eq _
      rw [hp, List.flatMap_cons, refs_append] at he
      rw [refs_append]
      omega
    · rw [hi hm, List.nil_append, List.erase_of_not_mem hm]
      exact he
  gone c hc hne := by
    by_cases hcs : c = s
    · rw [hcs]; exact hs
    · exact h.gone c (fun hm => hc ((List.mem_erase_of_ne hcs).2 hm)) hne
  freed s' hs' := by
    obtain rfl | hm := List.mem_cons.1 hs'
    · exact hs
    · exact h.freed s' hm

/-- **Letting go keeps the balance.** -/
theorem letGoFrom : ∀ (fuel : Nat) {t : Tally} {freed live : List Storage} {work : List Value},
    Balanced heap held t freed live work →
      ∃ live', Balanced heap held (heap.letGoFrom fuel t freed work).1 (heap.letGoFrom fuel t freed work).2 live' []
  | 0, _, _, live, _, h => ⟨live, h.drop_work⟩
  | _ + 1, _, _, live, [], h => ⟨live, h⟩
  | fuel + 1, t, freed, live, v :: work, h => by
    unfold Heap.letGoFrom
    split
    · rename_i hv
      exact letGoFrom fuel (h.skip hv)
    · rename_i s hv
      have hl := h.lower hv
      dsimp only
      split
      · rename_i hz
        refine letGoFrom fuel (hl.free hz fun hm => ?_)
        -- Freed storage counted none before, but the value at hand refers to it.
        refine Classical.byContradiction fun hne => ?_
        have he := h.enough s (h.covered s hne)
        rw [h.gone s hm hne, refs_cons, hv] at he
        simp at he
      · exact letGoFrom fuel hl

theorem pos_of_reaches (h : Balanced heap held t freed live work) {s : Storage} (hr : heap.Reaches held s)
    (hc : t.Covers s) : 0 < t.of s := by
  have he := h.enough s hc
  induction hr with
  | held hv hs =>
    have := refs_pos hv hs
    omega
  | inside hr hv hs ih =>
    rename_i c v s
    have hne : heap.inside c ≠ [] := List.ne_nil_of_mem hv
    have hcc := h.covered c hne
    have hpos := ih hcc (h.enough c hcc)
    have hlive : c ∈ live := Classical.byContradiction fun hm => by
      rw [h.gone c hm hne] at hpos
      exact Nat.lt_irrefl 0 hpos
    have := refs_pos (List.mem_flatMap.2 ⟨c, hlive, hv⟩) hs
    omega

end Balanced

theorem of_foldl_inside {heap : Heap} {s : Storage} : ∀ (cs : List Storage) {t : Tally}, t.Covers s →
    (cs.foldl (fun t c => (heap.inside c).foldl Tally.count t) t).of s = t.of s + refs s (cs.flatMap heap.inside)
  | [], t, _ => rfl
  | c :: cs, t, h => by
    rw [List.foldl_cons, of_foldl_inside cs ((Tally.covers_foldl_count _ t s).2 h), Tally.of_foldl_count _ h,
      List.flatMap_cons, refs_append]
    omega

theorem covers_foldl_inside {heap : Heap} (s : Storage) : ∀ (cs : List Storage) (t : Tally),
    (cs.foldl (fun t c => (heap.inside c).foldl Tally.count t) t).Covers s ↔ t.Covers s
  | [], _ => Iff.rfl
  | c :: cs, t => by rw [List.foldl_cons, covers_foldl_inside s cs, Tally.covers_foldl_count]

theorem covers_letGoFrom (heap : Heap) (s : Storage) : ∀ (fuel : Nat) (t : Tally) (freed : List Storage)
    (work : List Value), (heap.letGoFrom fuel t freed work).1.Covers s ↔ t.Covers s
  | 0, _, _, _ => Iff.rfl
  | _ + 1, _, _, [] => Iff.rfl
  | fuel + 1, t, freed, v :: work => by
    unfold letGoFrom
    split
    · exact covers_letGoFrom heap s fuel t freed work
    · dsimp only
      split <;> rw [covers_letGoFrom heap s fuel, Tally.covers_adjust]

/-- Every reference counted, before anything is taken back. -/
def census (heap : Heap) (files : Nat) (held : List Value) : Tally :=
  heap.cells.foldl (fun t s => (heap.inside s).foldl Tally.count t)
    (held.foldl Tally.count (Tally.zero heap.arrays.size heap.objects.size files))

theorem tally_eq (heap : Heap) (files : Nat) (held : List Value) :
    heap.tally files held = (heap.letGo (heap.census files held)
      ((heap.cells.filter ((heap.census files held).of · = 0)).flatMap heap.inside)).1 := rfl

theorem covers_census (heap : Heap) (files : Nat) (held : List Value) (s : Storage) :
    (heap.census files held).Covers s ↔ (Tally.zero heap.arrays.size heap.objects.size files).Covers s := by
  rw [census, covers_foldl_inside, Tally.covers_foldl_count]

theorem of_census {heap : Heap} {files : Nat} {held : List Value} {s : Storage}
    (h : (heap.census files held).Covers s) :
    (heap.census files held).of s = refs s held + refs s (heap.cells.flatMap heap.inside) := by
  rw [covers_census] at h
  rw [census, of_foldl_inside _ ((Tally.covers_foldl_count _ _ s).2 h), Tally.of_foldl_count _ h, Tally.of_zero,
    Nat.zero_add]

theorem covers_tally_file (heap : Heap) (files : Nat) (held : List Value) (id : FileId) :
    (heap.tally files held).Covers (.file id) ↔ id.index < files := by
  rw [tally_eq, letGo, covers_letGoFrom, covers_census, Tally.covers_zero]

theorem balanced_census (heap : Heap) (files : Nat) (held : List Value) :
    Balanced heap held (heap.census files held) [] (heap.cells.filter fun c => !((heap.census files held).of c = 0))
      ((heap.cells.filter ((heap.census files held).of · = 0)).flatMap heap.inside) where
  covered c hc := by
    have hm := (mem_cells_iff heap c).1 (mem_cells hc)
    rw [covers_census, Tally.covers_zero]
    cases c with
    | array id | object id => exact hm
    | file id => exact hm.elim
  enough s hs := by
    rw [of_census hs]
    have hp := ((List.filter_append_perm (fun c => (heap.census files held).of c = 0) heap.cells).flatMap_right
      heap.inside).countP_eq (fun v : Value => v.storage? == some s)
    rw [List.flatMap_append, List.countP_append] at hp
    unfold refs
    omega
  gone c hc hi := by
    have hm := mem_cells hi
    simpa [hm] using hc
  freed s hs := nomatch hs

/-- **Taking back what unused storage held leaves the counts in balance.** -/
theorem balanced_tally (heap : Heap) (files : Nat) (held : List Value) :
    ∃ live, Balanced heap held (heap.tally files held) [] live [] := by
  obtain ⟨live, h⟩ := (balanced_census heap files held).letGoFrom (heap.weight +
    ((heap.cells.filter ((heap.census files held).of · = 0)).flatMap heap.inside).length + 1)
  exact ⟨live, h.covered, h.enough, h.gone, fun s hs => nomatch hs⟩

end Heap

namespace World

theorem not_reaches_of_freed {w : World} {held loose : List Value} {id : FileId} (h : id ∈ w.freedFiles held loose)
    (hid : (w.file? id).isSome) : ¬ w.heap.Reaches held (.file id) := by
  intro hr
  obtain ⟨live, hb⟩ := w.heap.balanced_tally w.files.size (loose ++ held)
  have hb' : w.heap.Balanced held (w.heap.tally w.files.size (loose ++ held)) [] live loose :=
    ⟨hb.covered, fun s hs => by simpa [Nat.add_comm, refs] using hb.enough s hs, hb.gone, hb.freed⟩
  obtain ⟨live', hb''⟩ := hb'.letGoFrom (w.heap.weight + loose.length + 1)
  have hz : (w.heap.letGo (w.heap.tally w.files.size (loose ++ held)) loose).1.of (.file id) = 0 := by
    obtain ⟨s, hs, hid⟩ := List.mem_filterMap.1 h
    cases s with
    | file id' => cases hid; exact hb''.freed _ (List.mem_reverse.1 hs)
    | array _ | object _ => cases hid
  have hpos := hb''.pos_of_reaches hr (by
    rw [Heap.covers_letGoFrom, Heap.covers_tally_file]
    simpa [file?] using hid)
  exact Nat.lt_irrefl 0 (hz ▸ hpos)

theorem foldl_release_fixed : ∀ (freed : List FileId) (w : World), (freed.foldl release w).heap = w.heap ∧
    (freed.foldl release w).console = w.console ∧ (freed.foldl release w).random = w.random ∧
    (freed.foldl release w).files = w.files
  | [], _ => ⟨rfl, rfl, rfl, rfl⟩
  | id :: freed, w => by
    obtain ⟨hh, hc, hr, hf⟩ := foldl_release_fixed freed (w.release id)
    have hone : (w.release id).heap = w.heap ∧ (w.release id).console = w.console ∧
        (w.release id).random = w.random ∧ (w.release id).files = w.files := by
      unfold release writeOut
      split
      · split <;> exact ⟨rfl, rfl, rfl, rfl⟩
      · exact ⟨rfl, rfl, rfl, rfl⟩
    exact ⟨hh.trans hone.1, hc.trans hone.2.1, hr.trans hone.2.2.1, hf.trans hone.2.2.2⟩

/-- **Letting go releases files**, and none that the values which stay lead to. -/
theorem letGo_eq (w : World) (held loose : List Value) :
    ∃ freed : List FileId, w.letGo held loose = freed.foldl release w ∧
      ∀ id ∈ freed, (w.file? id).isSome → ¬ w.heap.Reaches held (.file id) := by
  unfold letGo
  dsimp only
  split
  · exact ⟨[], rfl, fun id h => nomatch h⟩
  · exact ⟨_, rfl, fun id h => not_reaches_of_freed h⟩

end World

end PseudoVm
