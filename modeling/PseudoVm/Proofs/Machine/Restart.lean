import PseudoVm.Proofs.Machine.CallSites
/-!
# Machine.Restart: starting a frame again is entering its call again

A frame that is started again is in every field the one that its call had pushed, and control stands where it stood right
after that call (`Machine.restart_reenters`): whatever was written into its cells and its operands in between, by the
program or from outside, the frame has kept what it was made from (`Machine.MadeBy.atCall?_eq`).
-/
namespace PseudoVm

namespace Machine

variable {image : Image} {limits : Limits} {world : World} {m₀ m : Machine}

/-- **The bottom frame is always that of the program about to start**, as far as it can be told from it. -/
theorem Reachable.atCall?_zero (h₀ : create? image limits world = some m₀) (h : m₀.Reachable m) (hd : 0 < m.depth) :
    m.atCall? 0 = bottom? image := by
  obtain ⟨hi₀, -⟩ := create?_fixed h₀
  induction h with
  | start =>
    obtain ⟨f, hf, rfl⟩ := Option.map_eq_some_iff.1 h₀
    rw [hf]
    obtain ⟨s, -, rfl⟩ := Option.map_eq_some_iff.1 hf
    exact congrArg some (Frame.reset_fresh ..)
  | @move m m' h hm ih =>
    cases hm.origin hd with
    | kept hlt heq => exact heq.trans (ih hlt)
    | anew _ heq => rw [heq, h.fixed.1, hi₀]
    | called _ _ hi _ hzero =>
      -- a program that has finished makes no calls
      have hdone : m.isDone = true := List.isEmpty_iff.2 (List.length_eq_zero_iff.1 hzero.symm)
      rw [(current?_eq_some_iff.1 hi).1] at hdone
      cases hdone

/-- **Restarting a frame enters its call again.**  There is nothing to restart if no frame has the number.  Otherwise as
many frames are left; those below are as they were, and the one on top is in every field the frame that its call had
pushed, with control where it stood right after that call, or, at the bottom, the frame of the program about to start. -/
theorem restart_reenters (h₀ : create? image limits world = some m₀) (h : m₀.Reachable m) (id : Nat) :
    (id = 0 ∨ m.depth < id → m.restartFrame? id = none) ∧
    (0 < id → id ≤ m.depth → ∃ m' top, m.restartFrame? id = some m' ∧ m'.depth = id ∧
      m'.stack = top :: m.stack.drop (m.depth - id + 1) ∧
      (top.params = top.args ∧ (∀ v ∈ top.locals, v = none) ∧ top.eval = []) ∧
      (id = 1 → m₀.stack = [top] ∧ m'.pc = m₀.pc) ∧
      (1 < id → (∃ caller i, MadeBy m₀ m (id - 1) caller i) ∧ ∀ caller i, MadeBy m₀ m (id - 1) caller i →
        caller.step.2.stack.head? = some top ∧ m'.pc = caller.step.2.pc)) := by
  refine ⟨restartFrame?_eq_none_iff.2, fun hpos hle => ?_⟩
  obtain ⟨m', hm'⟩ := Option.ne_none_iff_exists'.1 fun hnone : m.restartFrame? id = none => by
    have := restartFrame?_eq_none_iff.1 hnone
    omega
  obtain ⟨top, rest, -, hst, hpc, hrest, hlen⟩ := restartFrame?_stack hm'
  have hdepth : m'.depth = id := by rw [depth, hst, List.length_cons, hlen]
  have hatCall : m.atCall? (id - 1) = some top.reset := by
    have hnum : id - 1 = rest.length := by omega
    rw [← (atCall?_drop (restartFrame?_resets hm') (by omega)).2, hnum, atCall?_top hst, Frame.reset_reset]
  have hlocals : ∀ v ∈ top.reset.locals, v = none := by
    intro v hv
    obtain ⟨_, -, rfl⟩ := List.mem_map.1 hv
    rfl
  refine ⟨m', top.reset, hm', hdepth, hrest ▸ hst, ⟨rfl, hlocals, rfl⟩, fun hone => ?_,
    fun hone => ⟨?_, fun caller i hmade => ?_⟩⟩
  · subst hone
    rw [h.atCall?_zero h₀ (by omega)] at hatCall
    obtain ⟨f, hf, rfl⟩ := Option.map_eq_some_iff.1 h₀
    cases hf.symm.trans hatCall
    refine ⟨rfl, hpc.trans ?_⟩
    obtain ⟨s, -, hbottom⟩ := Option.map_eq_some_iff.1 hf
    exact (congrArg Frame.start hbottom).symm
  · have hd₀ : m₀.depth ≤ 1 := by
      obtain ⟨f, -, rfl⟩ := Option.map_eq_some_iff.1 h₀
      exact Nat.le_refl 1
    exact h.exists_madeBy hd₀ (by omega) (by omega)
  · obtain ⟨callee, hcallee, hpushed, -, hstart⟩ := hmade.atCall?_eq (by omega)
    cases hatCall.symm.trans hcallee
    exact ⟨hpushed, hpc.trans hstart.symm⟩

/-- A method has called itself, and its parameter has been overwritten from outside; started again it is what its call had
pushed. -/
theorem restart_reenters_selfCall :
    ∃ m m', (selfCallStart.stepped 5).assign (.param 1 0) (.int 7) = .ok m ∧ m.restartFrame? 2 = some m' ∧
      m'.depth = 2 ∧ m'.stack.head? = (selfCallStart.stepped 2).stack.head? ∧ m'.pc = 3 := by
  have h₀ : create? selfCall {} selfCallStart.world = some selfCallStart := rfl
  obtain ⟨m, hm⟩ : ∃ m, (selfCallStart.stepped 5).assign (.param 1 0) (.int 7) = .ok m := ⟨_, rfl⟩
  have hdepth : m.depth = 3 := (steady_assign hm).depth
  have hreachable : selfCallStart.Reachable m := .move (reachable_stepped selfCallStart 5) (.store hm)
  have hstanding : Standing 1 (selfCallStart.stepped 2) m :=
    .move (.move (.move (.move (.start (by decide)) (.step _) (by decide)) (.step _) (by decide)) (.step _)
      (by decide)) (.store hm) (by omega)
  have hmade : MadeBy selfCallStart m 1 (selfCallStart.stepped 1) ⟨⟨1, 1⟩, .vcall 0 0 1⟩ :=
    ⟨reachable_stepped selfCallStart 1, rfl, rfl, rfl, rfl, hstanding⟩
  obtain ⟨-, hrestart⟩ := restart_reenters h₀ hreachable 2
  obtain ⟨m', top, hm', hd, hst, -, -, hcall⟩ := hrestart (by decide) (by omega)
  obtain ⟨hhead, hpc⟩ := (hcall (by decide)).2 _ _ hmade
  refine ⟨m, m', hm, hm', hd, ?_, hpc⟩
  rw [hst, List.head?_cons]
  exact hhead.symm

end Machine

end PseudoVm
