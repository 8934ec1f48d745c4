import PseudoVm.Machine.Evaluate
import PseudoVm.Proofs.Machine.EvaluationTrace
import PseudoVm.Proofs.Machine.GraftedRun
import PseudoVm.Proofs.World.GrownHeap
/-!
# Machine.Intact: a program refers to storage that is there

Whatever a program and its debugger do, the values that the program holds, and those inside arrays and objects, refer to
storage that the world has (`Machine.Live.intact`).
-/
namespace PseudoVm

variable {R R' : Region}

namespace World

variable {w w₁ : World} {writes : Bool}

theorem has_congr (hh : w₁.heap = w.heap) (hf : w₁.files = w.files) : w₁.Has = w.Has := by
  funext s
  cases s <;> simp only [Has, hh, hf]

theorem Enlarged.has (h : Enlarged R writes w w₁) {s : Storage} (hs : w.Has s) : w₁.Has s := by
  cases s with
  | array id => exact Nat.lt_of_lt_of_le hs h.arrays
  | object id => exact Nat.lt_of_lt_of_le hs h.objects
  | file id => exact Nat.lt_of_lt_of_le hs h.files

theorem Enlarged.has_grown (h : Enlarged R' writes w w₁) {s : Storage} (hs : Grown w.Has w w₁ s) : w₁.Has s := by
  rcases hs with hs | hs
  · exact h.has hs
  · cases s <;> exact hs.2

end World

namespace Machine

variable {m m' : Machine} {v : Value}

theorem Within.values (hm : m.Within R) : ∀ v ∈ m.values, v.Within R := by
  intro v hv
  rcases List.mem_append.1 hv with hv | hv
  · rcases List.mem_append.1 hv with hv | hv
    · obtain ⟨f, hf, hv⟩ := List.mem_flatMap.1 hv
      exact Frame.within_iff.1 (hm.stack f (List.mem_reverse.1 hf)) v hv
    · exact hm.result v (Option.mem_toList.1 hv)
  · obtain ⟨f, hf, hv⟩ := List.mem_flatMap.1 hv
    exact Frame.within_iff.1 (hm.suspended f hf) v hv

theorem settle_fixed (m : Machine) : m.settle.world.heap = m.world.heap ∧ m.settle.world.files = m.world.files := by
  obtain ⟨freed, hfreed, -⟩ := m.settle_world
  obtain ⟨hheap, -, -, hfiles⟩ := World.foldl_release_fixed freed m.world
  rw [hfreed]
  exact ⟨hheap, hfiles⟩

theorem Within.settle (hm : m.Within R) : m.settle.Within R := by
  have hst := m.steady_settle
  refine ⟨by rw [settle_stack]; exact hm.stack, by rw [hst.result]; exact hm.result,
    by rw [hst.suspended]; exact hm.suspended, ?_, by rw [m.settle_fixed.1]; exact hm.closed⟩
  rw [settle_loose]
  exact List.forall_mem_nil _

/-- **What a machine holds refers to storage that is there**, and so does what is inside that. -/
def Intact (m : Machine) : Prop := m.Within m.world.Has

theorem Intact.settle (hm : m.Intact) : m.settle.Intact := by
  have hhas : m.settle.world.Has = m.world.Has := World.has_congr m.settle_fixed.1 m.settle_fixed.2
  unfold Intact
  rw [hhas]
  exact Within.settle hm

theorem Within.reset {f : Frame} (hf : f.Within R) : f.reset.Within R := by
  refine ⟨hf.args, hf.args, fun v hv => ?_, List.forall_mem_nil _⟩
  obtain ⟨_, -, hnone⟩ := List.mem_map.1 hv
  cases hnone

theorem within_bottom? (image : Image) : ∀ f ∈ (bottom? image).toList, f.Within R := by
  intro f hf
  obtain ⟨scope, -, rfl⟩ := Option.map_eq_some_iff.1 (Option.mem_toList.1 hf)
  exact ⟨List.forall_mem_nil _, List.forall_mem_nil _, fun v hv => (by cases (List.mem_replicate.1 hv).2),
    List.forall_mem_nil _⟩

/-- **A step keeps a program intact**, and the world has no less after it. -/
theorem Intact.step (hm : m.Intact) : m.step.2.Intact ∧ ∀ s, m.world.Has s → m.step.2.world.Has s := by
  have hhosts : m.counted.Hosts Graft.empty m.world.Has := ⟨{ hm with }, Nat.zero_le _, Nat.zero_le _⟩
  have hop : ∀ o : Op, Exec.Adds m.world.Has true o m.counted := fun o => by
    have h : Exec.AllotsSame Graft.empty m.world.Has true (Exec.op o) (Exec.op o) := Exec.allots_op o nofun
    exact ⟨fun he => (h.ok hhosts he).2, h.error hhosts⟩
  obtain ⟨m₁, hstep, hm₁, hw⟩ := step_adds hm fun i _ _ => hop i.op
  have hclosed : m₁.world.heap.Closed m₁.world.Has := by
    intro c hc v hv
    by_cases hold : World.Grown m.world.Has m.world m₁.world c
    · exact (hm₁.closed c hold v hv).mono fun s => hw.has_grown
    · -- storage that is there was there before, or has been added
      refine absurd ?_ hold
      by_cases hbefore : m.world.Has c
      · exact .inl hbefore
      · cases c <;> exact .inr ⟨Nat.le_of_not_lt hbefore, hc⟩
  rw [hstep]
  refine ⟨Intact.settle (hm₁.setWorld (fun s => hw.has_grown) hclosed), fun s hs => ?_⟩
  rw [World.has_congr m₁.settle_fixed.1 m₁.settle_fixed.2]
  exact hw.has hs

theorem Intact.stepped (hm : m.Intact) : ∀ n, (m.stepped n).Intact ∧ ∀ s, m.world.Has s → (m.stepped n).world.Has s
  | 0 => ⟨hm, fun _ => id⟩
  | n + 1 => by
    obtain ⟨hn, hhas⟩ := hm.stepped n
    obtain ⟨hstep, hhas'⟩ := hn.step
    exact ⟨hstep, fun s hs => hhas' s (hhas s hs)⟩

theorem Intact.rewind (hm : m.Intact) : m.rewind.Intact := by
  have hover : ({ m with stack := (bottom? m.image).toList, pc := 0, executed := 0, result := none } : Machine).Within
      m.world.Has :=
    ⟨within_bottom? _, fun v hv => by (cases hv), hm.suspended, hm.loose, hm.closed⟩
  refine Intact.settle ?_
  unfold Intact
  rw [letGo_world]
  exact hover.letGo fun v hv => Within.values hm v (List.mem_append_left _ hv)

theorem Intact.restartFrame? (hm : m.Intact) {id : Nat} (h : m.restartFrame? id = some m') : m'.Intact := by
  obtain ⟨-, -, top, rest, hdrop, rfl⟩ := restartFrame?_ok h
  have hrest : ∀ f ∈ top :: rest, f.Within m.world.Has := fun f hf =>
    hm.stack f (List.mem_of_mem_drop (hdrop ▸ hf))
  obtain ⟨htop, hrest⟩ := List.forall_mem_cons.1 hrest
  have hagain : ({ m with stack := top.reset :: rest, pc := top.start } : Machine).Within m.world.Has :=
    ⟨List.forall_mem_cons.2 ⟨Within.reset htop, hrest⟩, hm.result, hm.suspended, hm.loose, hm.closed⟩
  refine Intact.settle ?_
  unfold Intact
  rw [letGo_world]
  refine hagain.letGo fun v hv => ?_
  simp only [List.mem_append, List.mem_flatMap, List.mem_reverse] at hv
  rcases hv with ((⟨f, hf, hv⟩ | hv) | hv) | hv
  · exact Frame.within_iff.1 (hm.stack f (List.mem_of_mem_take hf)) v hv
  · exact htop.params v hv
  · obtain ⟨_, hlocal, rfl⟩ := List.mem_filterMap.1 hv
    exact htop.locals v hlocal
  · exact htop.eval v hv

theorem has_of_peek {r : Reference} {o : Option Value} (h : m.peek r = .ok o) : (Value.ref r).Within m.world.Has := by
  intro s hs
  cases r with
  | element id index =>
    cases hs
    refine Nat.lt_of_not_le fun hle => ?_
    simp only [Machine.peek, Heap.items?, Array.getElem?_eq_none hle, Option.getD_none] at h
    cases h
  | field id index =>
    cases hs
    refine Nat.lt_of_not_le fun hle => ?_
    simp only [Machine.peek, Heap.fields?, Array.getElem?_eq_none hle, Option.getD_none] at h
    cases h
  | _ => cases hs

theorem Intact.assign (hm : m.Intact) {r : Reference} (hv : v.Within m.world.Has) (h : m.assign r v = .ok m') :
    m'.Intact := by
  obtain ⟨m₁, hs, rfl⟩ := assign_eq_ok_iff.1 h
  have hw : m.world.Overwritten true m₁.world := m.overwritten_store nofun hs
  have hhas : m₁.world.Has = m.world.Has := by
    funext s
    cases s with
    | array id => simp only [World.Has, hw.arrays]
    | object id => simp only [World.Has, hw.objects]
    | file id => rw [hw.rest]; rfl
  refine Intact.settle ?_
  unfold Intact
  rw [hhas]
  refine Within.store hm ?_ hv hs
  rw [store_eq_peek] at hs
  split at hs <;> cases hs
  rename_i hp
  exact has_of_peek hp

/-! ## Evaluations -/

/-- **A run comes to what its steps come to**: each of them succeeded, the last perhaps not. -/
theorem runFor_eq_stepped : ∀ (fuel : Nat) (m : Machine),
    ∃ k, (m.runFor fuel).2 = m.stepped k ∧ ∀ j, j < k → m.Succeeds j
  | 0, m => ⟨0, rfl, fun j hj => absurd hj (Nat.not_lt_zero j)⟩
  | fuel + 1, m => by
    rw [runFor]
    by_cases hd : m.isDone = true
    · rw [if_pos hd]
      exact ⟨0, rfl, fun j hj => absurd hj (Nat.not_lt_zero j)⟩
    rw [if_neg hd]
    have hnone : m.Succeeds 0 := fun j hj => absurd hj (Nat.not_lt_zero j)
    cases hs : m.step with
    | mk stop m₁ =>
      have hm₁ : m₁ = m.step.2 := by rw [hs]
      cases stop with
      | some s => exact ⟨1, hm₁, fun j hj => by cases Nat.lt_one_iff.1 hj; exact hnone⟩
      | none =>
        obtain ⟨k, hk, hsucceeds⟩ := runFor_eq_stepped fuel m₁
        refine ⟨k + 1, by rw [stepped_succ, ← hm₁]; exact hk, fun j hj => ?_⟩
        cases j with
        | zero => exact hnone
        | succ j =>
          intro i hi
          cases i with
          | zero => rw [stepped, hs]
          | succ i =>
            rw [stepped_succ, ← hm₁]
            exact hsucceeds j (Nat.lt_of_succ_lt_succ hj) i (Nat.lt_of_succ_lt_succ hi)

theorem run_eq_stepped (m : Machine) : ∃ k, m.run.2 = m.stepped k ∧ ∀ j, j < k → m.Succeeds j :=
  runFor_eq_stepped m.budget m

theorem evaluated_world (m : Machine) : m.evaluated.2 = m.run.2.leftWorld := by
  unfold evaluated runTraced
  cases m.run with
  | mk stop e =>
    cases stop with
    | some s =>
      dsimp only
      cases e.explain s <;> rfl
    | none =>
      dsimp only
      cases e.result <;> rfl

/-- **What an evaluation leaves is the world once its run has ended**; without its frame it leaves everything. -/
theorem evaluate_world (m : Machine) (id : Nat) (code : List Instruction) :
    (m.evaluate id code).2 = m ∨ ∃ f k, 0 < id ∧ m.frame? (id - 1) = some f ∧
      (m.evaluate id code).2 = { m with world := ((m.evaluator f code).stepped k).leftWorld } ∧
      ∀ j, j < k → (m.evaluator f code).Succeeds j := by
  unfold evaluate
  by_cases hid : id = 0
  · rw [if_pos hid]
    exact .inl rfl
  rw [if_neg hid]
  cases m.frame? (id - 1) with
  | none => exact .inl rfl
  | some f =>
    obtain ⟨k, hk, hsucceeds⟩ := (m.evaluator f code).run_eq_stepped
    refine .inr ⟨f, k, Nat.pos_of_ne_zero hid, rfl, ?_, hsucceeds⟩
    dsimp only
    rw [evaluated_world, hk]

theorem leftWorld_files (m : Machine) : m.leftWorld.files = m.world.files := by
  unfold leftWorld
  rw [(settle_fixed _).2, letGo_world]

theorem Within.evaluator (hm : m.Within R) {n : Nat} {f : Frame} (hf : m.frame? n = some f) (code : List Instruction) :
    (m.evaluator f code).Within R := by
  have hframe := hm.frame? hf
  refine ⟨List.forall_mem_cons.2 ⟨{ hframe with eval := List.forall_mem_nil _ }, hm.stack⟩, fun v hv => (by cases hv),
    fun f hf => ?_, hm.loose, hm.closed⟩
  rcases List.mem_append.1 hf with hf | hf
  · exact hm.stack f hf
  · exact hm.suspended f hf

theorem Intact.evaluate (hm : m.Intact) (id : Nat) (code : List Instruction) : (m.evaluate id code).2.Intact := by
  obtain hsame | ⟨f, k, -, hf, heq, -⟩ := m.evaluate_world id code
  · rw [hsame]
    exact hm
  · have hstart : (m.evaluator f code).Intact := Within.evaluator hm hf code
    obtain ⟨hend, hhas⟩ := hstart.stepped k
    have hhas' : ((m.evaluator f code).stepped k).leftWorld.Has = ((m.evaluator f code).stepped k).world.Has :=
      World.has_congr (leftWorld_heap _) (leftWorld_files _)
    rw [heq]
    unfold Intact
    dsimp only
    rw [hhas']
    refine Within.setWorld hm hhas ?_
    rw [leftWorld_heap]
    exact hend.closed

/-- **A program under a debugger.**  It takes steps, successful or not; the debugger restarts its frames, starts it
over, puts values that are there into its cells, and evaluates code. -/
inductive Live (image : Image) (limits : Limits) : Machine → Prop
  | start {w : World} {m : Machine} (hw : w.heap.Closed w.Has) (h : create? image limits w = some m) :
    Live image limits m
  | step {m : Machine} (hm : Live image limits m) : Live image limits m.step.2
  | restart {m m' : Machine} {id : Nat} (hm : Live image limits m) (h : m.restartFrame? id = some m') :
    Live image limits m'
  | rewind {m : Machine} (hm : Live image limits m) : Live image limits m.rewind
  | assign {m m' : Machine} {r : Reference} {v : Value} (hm : Live image limits m) (hv : v.Within m.world.Has)
    (h : m.assign r v = .ok m') : Live image limits m'
  | evaluate {m : Machine} (hm : Live image limits m) (id : Nat) (code : List Instruction) :
    Live image limits (m.evaluate id code).2

/-- **Whatever a program and its debugger do, the program is intact.** -/
theorem Live.intact {image : Image} {limits : Limits} (h : Live image limits m) : m.Intact := by
  induction h with
  | start hw h =>
    obtain ⟨f, hf, rfl⟩ := Option.map_eq_some_iff.1 h
    refine ⟨List.forall_mem_singleton.2 (within_bottom? image f (Option.mem_toList.2 hf)), fun v hv => (by cases hv),
      List.forall_mem_nil _, List.forall_mem_nil _, hw⟩
  | step _ ih => exact ih.step.1
  | restart _ h ih => exact ih.restartFrame? h
  | rewind _ ih => exact ih.rewind
  | assign _ hv h ih => exact ih.assign hv h
  | evaluate _ id code ih => exact ih.evaluate id code

theorem Live.stepped {image : Image} {limits : Limits} (h : Live image limits m) : ∀ n, Live image limits (m.stepped n)
  | 0 => h
  | n + 1 => (h.stepped n).step

theorem step_loose (m : Machine) : m.step.2.loose = [] := by
  obtain ⟨m₁, h, -⟩ := m.exists_unsettled
  rw [h, settle_loose]

theorem Live.loose {image : Image} {limits : Limits} (h : Live image limits m) : m.loose = [] := by
  induction h with
  | start _ h =>
    obtain ⟨f, -, rfl⟩ := Option.map_eq_some_iff.1 h
    rfl
  | step => exact step_loose _
  | restart _ h =>
    obtain ⟨-, -, top, rest, -, rfl⟩ := restartFrame?_ok h
    exact settle_loose _
  | rewind => exact settle_loose _
  | assign _ _ h =>
    obtain ⟨m₁, -, rfl⟩ := assign_eq_ok_iff.1 h
    exact settle_loose _
  | @evaluate m _ id code ih =>
    obtain hsame | ⟨f, k, -, -, heq, -⟩ := m.evaluate_world id code
    · rw [hsame]
      exact ih
    · rw [heq]
      exact ih

end Machine

end PseudoVm
