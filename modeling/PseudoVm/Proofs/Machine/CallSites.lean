import PseudoVm.Proofs.Machine.CallReturn
import PseudoVm.Proofs.Machine.StackShape
/-!
# Machine.CallSites: the call that made a frame

Every frame but the bottom one was set on the stack by a step that executed a call, and has stood there ever since:
whatever happened in between left it where it was (`Machine.Standing`).  It keeps what it was made from, so that what it
was right after its call can be told from it at any time (`Frame.reset`, `Machine.atCall?`); among that is the offset of
its call and no other (`Machine.Reachable.madeBy`), however often the frame itself was started again, and however many
frames above it came and went.
-/
namespace PseudoVm

/-! ## Frames right after their call -/

/-- The frame with an outline right after its call. -/
def Outline.fresh (o : Outline) : Frame := .fresh o.scope o.start o.returnPc o.args o.locals

namespace Frame

theorem reset_eq_fresh (f : Frame) : f.reset = f.outline.fresh := by
  simp only [reset, Outline.fresh, outline, fresh, List.map_const']

theorem map_reset (fs : List Frame) : fs.map reset = (fs.map outline).map Outline.fresh := by
  rw [List.map_map]
  exact List.map_congr_left fun f _ => f.reset_eq_fresh

theorem reset_fresh (scope : ScopeId) (start returnPc : Nat) (args : List Value) (locals : Nat) :
    (fresh scope start returnPc args locals).reset = fresh scope start returnPc args locals := by
  simp only [reset, fresh, List.map_const', List.length_replicate]

theorem reset_reset (f : Frame) : f.reset.reset = f.reset := by
  rw [reset_eq_fresh f]
  exact reset_fresh ..

end Frame

namespace Machine

variable {m₀ m m' caller : Machine} {n id : Nat} {i : Instruction}

/-- **The frame with a number, counted from the bottom, stays on the stack** from one machine to another. -/
inductive Standing (n : Nat) (m₀ : Machine) : Machine → Prop
  | start (hd : n < m₀.depth) : Standing n m₀ m₀
  | move {m m' : Machine} (h : Standing n m₀ m) (hm : Move m m') (hd : n < m'.depth) : Standing n m₀ m'

/-- **The call that made a frame**: the step of `caller` executed the call `i` and set the frame with the number on the
stack, where it stands still. -/
structure MadeBy (m₀ m : Machine) (n : Nat) (caller : Machine) (i : Instruction) : Prop where
  reachable : m₀.Reachable caller
  current : caller.current? = some i
  call : i.op.nargs?.isSome
  succeeds : caller.step.1 = none
  number : caller.depth = n
  standing : Standing n caller.step.2 m

/-- **The frame with a number, counted from the bottom, as it was right after its call.** -/
def atCall? (m : Machine) (n : Nat) : Option Frame := (m.stack.map Frame.reset).reverse[n]?

theorem lt_depth_of_atCall? {f : Frame} (h : m.atCall? n = some f) : n < m.depth := by
  have hlt := (List.getElem?_eq_some_iff.1 h).1
  rwa [List.length_reverse, List.length_map] at hlt

theorem atCall?_of_getElem? {k : Nat} {f : Frame} (h : m.stack[k]? = some f) :
    m.atCall? (m.depth - 1 - k) = some f.reset := by
  have hlt : k < m.stack.length := (List.getElem?_eq_some_iff.1 h).1
  rw [atCall?, List.getElem?_reverse (by rw [List.length_map]; unfold depth; omega), List.length_map]
  have hk : m.stack.length - 1 - (m.depth - 1 - k) = k := by
    unfold depth
    omega
  rw [hk, List.getElem?_map, h]
  rfl

theorem atCall?_top {f : Frame} {rest : List Frame} (hst : m.stack = f :: rest) :
    m.atCall? rest.length = some f.reset := by
  have hnumber : m.depth - 1 - 0 = rest.length := by
    rw [depth, hst, List.length_cons]
    omega
  rw [← hnumber]
  exact atCall?_of_getElem? (by rw [hst]; rfl)

theorem atCall?_drop {k : Nat} (h : m'.stack.map Frame.reset = (m.stack.map Frame.reset).drop k)
    (hn : n < m'.depth) : n < m.depth ∧ m'.atCall? n = m.atCall? n := by
  have hlen := congrArg List.length h
  simp only [List.length_map, List.length_drop] at hlen
  unfold depth at hn ⊢
  have hlt : n < (m.stack.map Frame.reset).length - k := by
    rw [List.length_map]
    omega
  exact ⟨by omega, by rw [atCall?, atCall?, h, List.reverse_drop, List.getElem?_take_of_lt hlt]⟩

theorem atCall?_cons {f : Frame} (h : m'.stack.map Frame.reset = f :: m.stack.map Frame.reset) (hn : n < m.depth) :
    m'.atCall? n = m.atCall? n := by
  rw [atCall?, atCall?, h, List.reverse_cons, List.getElem?_append_left]
  rwa [List.length_reverse, List.length_map]

/-! ## What happens to the frames -/

theorem Steady.resets (h : m.Steady m') : m'.stack.map Frame.reset = m.stack.map Frame.reset := by
  rw [Frame.map_reset, Frame.map_reset, h.outlines]

/-- **What a step does to the frames**: the latest ones leave, or a call sets one on them. -/
theorem step_resets (m : Machine) :
    (∃ k, m.step.2.stack.map Frame.reset = (m.stack.map Frame.reset).drop k) ∨
    ∃ i f, m.step.1 = none ∧ m.current? = some i ∧ i.op.nargs?.isSome ∧ f.returnPc = m.pc ∧
      m.step.2.stack.map Frame.reset = f :: m.stack.map Frame.reset := by
  cases hs : m.step with
  | mk stop m' =>
    cases stop with
    | some s =>
      obtain ⟨n, -, hst, -⟩ := step_some hs
      exact .inl ⟨0, hst.resets⟩
    | none =>
      obtain ⟨i, flow, m₁, hd, -, hi, he, rfl⟩ := step_none hs
      have hstack : (m₁.flowTo flow).settle.stack = m₁.stack := by rw [settle_stack, flowTo_stack]
      have hcur : m.current? = some i := current?_eq_some_iff.2 ⟨hd, hi⟩
      dsimp only
      rw [hstack]
      cases he with
      | stay hst => exact .inl ⟨0, hst.resets⟩
      | jump _ _ hst => exact .inl ⟨0, hst.resets⟩
      | @enter nargs caller rest target scope s hop hst =>
        have hstm : m.stack = caller :: rest := hst
        let callee := Frame.fresh scope target m.pc (caller.eval.take nargs).reverse s.locals.length
        refine .inr ⟨i, callee.reset, rfl, hcur, by rw [hop]; rfl, rfl, ?_⟩
        rw [letGo_stack, hstm]
        rfl
      | @leave frame caller rest hop hst =>
        have hstm : m.stack = frame :: caller :: rest := hst
        refine .inl ⟨1, ?_⟩
        rw [letGo_stack, hstm]
        rfl
      | finish | halt =>
        refine .inl ⟨m.stack.length, ?_⟩
        rw [letGo_stack, ← List.map_drop, List.drop_length]

theorem restartFrame?_eq_none_iff : m.restartFrame? id = none ↔ id = 0 ∨ m.depth < id := by
  unfold Machine.restartFrame?
  by_cases h₀ : id = 0
  · simp [h₀]
  by_cases hd : m.depth < id
  · simp [hd]
  rw [if_neg h₀, if_neg hd]
  split
  · rename_i hdrop
    have := List.drop_eq_nil_iff.1 hdrop
    unfold depth at this hd
    omega
  · simp [h₀, hd]

/-- **A restart leaves the frames below alone.** -/
theorem restartFrame?_stack (h : m.restartFrame? id = some m') : ∃ top rest,
    m.stack.drop (m.depth - id) = top :: rest ∧ m'.stack = top.reset :: rest ∧ m'.pc = top.start ∧
      rest = m.stack.drop (m.depth - id + 1) ∧ rest.length + 1 = id := by
  obtain ⟨hid, hle, top, rest, hdrop, rfl⟩ := restartFrame?_ok h
  have hlen := congrArg List.length hdrop
  rw [List.length_drop, List.length_cons] at hlen
  refine ⟨top, rest, hdrop, ?_, ?_, ?_, ?_⟩
  · rw [settle_stack, letGo_stack]
  · rw [(steady_settle _).pc, letGo_pc]
  · rw [← List.drop_drop, hdrop]
    rfl
  · unfold depth at hlen hle
    omega

theorem restartFrame?_resets (h : m.restartFrame? id = some m') :
    m'.stack.map Frame.reset = (m.stack.map Frame.reset).drop (m.depth - id) := by
  obtain ⟨top, rest, hdrop, hst, -⟩ := restartFrame?_stack h
  rw [← List.map_drop, hdrop, hst, List.map_cons, List.map_cons, Frame.reset_reset]

/-- **Where the frame with a number comes from in a move**: it was there and came from the same call, it is that of a
program started over, or the move was the call. -/
inductive Origin (n : Nat) (m m' : Machine) : Prop
  | kept (hn : n < m.depth) (h : m'.atCall? n = m.atCall? n)
  | anew (hn : n = 0) (h : m'.atCall? 0 = bottom? m.image)
  | called {i : Instruction} (hm : m' = m.step.2) (hs : m.step.1 = none) (hi : m.current? = some i)
      (hc : i.op.nargs?.isSome) (hn : n = m.depth)

/-- **What a move can do to a frame that is there after it.** -/
theorem Move.origin (hm : Move m m') (hn : n < m'.depth) : Origin n m m' := by
  have hdrop : ∀ {k : Nat}, m'.stack.map Frame.reset = (m.stack.map Frame.reset).drop k → Origin n m m' := by
    intro k h
    obtain ⟨hlt, heq⟩ := atCall?_drop h hn
    exact .kept hlt heq
  cases hm with
  | step =>
    obtain ⟨k, h⟩ | ⟨i, f, hs, hi, hc, -, h⟩ := m.step_resets
    · exact hdrop h
    · by_cases hlt : n < m.depth
      · exact .kept hlt (atCall?_cons h hlt)
      · have hlen := congrArg List.length h
        rw [List.length_cons, List.length_map, List.length_map] at hlen
        exact .called rfl hs hi hc (by unfold depth at *; omega)
  | restart h => exact hdrop (restartFrame?_resets h)
  | rewind =>
    rw [m.steady_rewind.depth] at hn
    have hlt : n < (bottom? m.image).toList.length := hn
    have hone : (bottom? m.image).toList.length ≤ 1 := Option.length_toList_le
    refine .anew (by omega) ?_
    rw [atCall?, m.steady_rewind.resets]
    dsimp only
    cases hb : bottom? m.image with
    | none => rfl
    | some f =>
      obtain ⟨s, -, rfl⟩ := Option.map_eq_some_iff.1 hb
      exact congrArg some (Frame.reset_fresh ..)
  | store h => exact hdrop (k := 0) (steady_assign h).resets

theorem Standing.lt_depth (h : Standing n m₀ m) : n < m.depth := by
  cases h with
  | start hd => exact hd
  | move _ _ hd => exact hd

/-- **A frame that stays on the stack keeps what it was right after its call**, whatever is written into it. -/
theorem Standing.atCall?_eq (h : Standing n m₀ m) (hn : 0 < n) : m.atCall? n = m₀.atCall? n := by
  induction h with
  | start => rfl
  | move h hm hd ih =>
    cases hm.origin hd with
    | kept _ heq => exact heq.trans ih
    | anew h₀ => omega
    | called _ _ _ _ heq => exact absurd heq (Nat.ne_of_lt h.lt_depth)

/-- **A call pushes a frame as it is right after its call**, with the offset of the call to return to, and control goes on
at the frame's start. -/
theorem MadeBy.pushed (h : MadeBy m₀ m n caller i) : ∃ callee rest, caller.step.2.stack = callee :: rest ∧
    rest.length = n ∧ callee.reset = callee ∧ callee.returnPc = caller.pc ∧ caller.step.2.pc = callee.start := by
  have hstep : caller.step = (none, caller.step.2) := by rw [← h.succeeds]
  obtain ⟨nargs, hargs⟩ := Option.isSome_iff_exists.1 h.call
  obtain ⟨i', flow, m₁, hcur, -, ho, heq⟩ := step_ok hstep
  cases hcur.symm.trans h.current
  have hdepth : m₁.depth = caller.counted.depth + 1 := Exec.op_call_depth hargs ho
  have hstack : caller.step.2.stack = m₁.stack := by rw [heq, settle_stack, flowTo_stack]
  have hpc : caller.step.2.pc = (m₁.flowTo flow).pc := by rw [heq, (steady_settle _).pc]
  have hnumber := h.number
  -- only a call leaves one more frame
  cases Exec.op_effect i.op ho with
  | stay hst | jump _ _ hst =>
    have hsame : m₁.depth = caller.counted.depth := hst.depth
    omega
  | @enter nargs' top rest target scope s hop hst =>
    refine ⟨_, _, hstack.trans (letGo_stack _ _), ?_, Frame.reset_fresh .., rfl, hpc⟩
    have hst' : caller.stack = top :: rest := hst
    rw [← hnumber, depth, hst', List.length_cons, List.length_cons]
  | leave hop | finish hop =>
    rw [Op.nval?_eq_none hargs] at hop
    cases hop
  | halt hop =>
    rw [hop] at hargs
    cases hargs

/-- **A frame that a call made is, as right after its call, the one that the call had pushed.** -/
theorem MadeBy.atCall?_eq (h : MadeBy m₀ m n caller i) (hn : 0 < n) : ∃ callee, m.atCall? n = some callee ∧
    caller.step.2.stack.head? = some callee ∧ callee.returnPc = caller.pc ∧ caller.step.2.pc = callee.start := by
  obtain ⟨callee, rest, hst, rfl, hreset, hreturn, hpc⟩ := h.pushed
  refine ⟨callee, ?_, by rw [hst]; rfl, hreturn, hpc⟩
  rw [h.standing.atCall?_eq hn, atCall?_top hst, hreset]

/-- **Every frame but the bottom one was made by a call**, and has stood there ever since. -/
theorem Reachable.exists_madeBy (hd₀ : m₀.depth ≤ 1) (h : m₀.Reachable m) (hpos : 0 < n) (hn : n < m.depth) :
    ∃ caller i, MadeBy m₀ m n caller i := by
  induction h with
  | start => omega
  | @move m m' h hm ih =>
    cases hm.origin hn with
    | kept hlt =>
      obtain ⟨caller, i, hmade⟩ := ih hlt
      exact ⟨caller, i, { hmade with standing := .move hmade.standing hm hn }⟩
    | anew h₀ => omega
    | @called i heq hs hi hc hnum =>
      subst heq
      exact ⟨m, i, h, hi, hc, hs, hnum.symm, .start hn⟩

/-- **Every frame but the bottom one keeps the offset of the call that made it.** -/
theorem Reachable.madeBy (hd₀ : m₀.depth ≤ 1) (h : m₀.Reachable m) {f : Frame} (hn : 0 < n)
    (hf : m.atCall? n = some f) : ∃ caller i, MadeBy m₀ m n caller i ∧ f.returnPc = caller.pc := by
  obtain ⟨caller, i, hmade⟩ := h.exists_madeBy hd₀ hn (lt_depth_of_atCall? hf)
  obtain ⟨callee, hcallee, -, hreturn, -⟩ := hmade.atCall?_eq hn
  cases hf.symm.trans hcallee
  exact ⟨caller, i, hmade, hreturn⟩

end Machine

end PseudoVm
