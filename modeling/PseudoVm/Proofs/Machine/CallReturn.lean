import PseudoVm.Proofs.Machine.Runs
/-!
# Machine.CallReturn: a call and its return

A call sets a frame with its arguments on top of its caller.  From then on the activation is under way
(`Machine.UnderWay`): whatever it and the calls it makes do, the frames below it keep their outlines and their operands,
and only their cells are written, through references.  The step that takes the depth back to the caller's is its return,
which hands over the operands of the frame (`Machine.Returns`, `Machine.call_discipline`).
-/
namespace PseudoVm

/-- A frame without the contents of its cells. -/
def Frame.bare (f : Frame) : Outline × List Value := (f.outline, f.eval)

theorem map_bare_eq_iff {fs gs : List Frame} : fs.map Frame.bare = gs.map Frame.bare ↔
    fs.map Frame.outline = gs.map Frame.outline ∧ fs.map Frame.eval = gs.map Frame.eval := by
  constructor
  · intro h
    have h₁ := congrArg (List.map Prod.fst) h
    have h₂ := congrArg (List.map Prod.snd) h
    rw [List.map_map, List.map_map] at h₁ h₂
    exact ⟨h₁, h₂⟩
  · rintro ⟨h₁, h₂⟩
    have hzip : ∀ l : List Frame, l.map Frame.bare = (l.map Frame.outline).zip (l.map Frame.eval) := fun l =>
      List.zip_map'.symm
    rw [hzip, hzip, h₁, h₂]

theorem Op.nval?_eq_none {o : Op} {n : Nat} (h : o.nargs? = some n) : o.nval? = none := by
  cases o <;> first | rfl | cases h

namespace Exec

theorem enter_depth {target : Nat} {scope : ScopeId} {args : List Value} {m m' : Machine} {flow : Flow}
    (h : enter target scope args m = .ok flow m') : m'.depth = m.depth + 1 := by
  obtain ⟨-, s, -, -, rfl⟩ := enter_ok h
  rfl

theorem op_call_depth {o : Op} {n : Nat} (hop : o.nargs? = some n) {m m' : Machine} {flow : Flow}
    (h : op o m = .ok flow m') : m'.depth = m.depth + 1 := by
  have henter : ∀ {args : List Value} {m₁ m₂ : Machine} {target : Nat} {scope : ScopeId},
      popMany n m = .ok args m₁ → enter target scope args m₁ = .ok flow m₂ →
      (m₂.letGo args).depth = m.depth + 1 := by
    intro args m₁ m₂ target scope hp he
    have hst := (keeps_popMany (A := fun _ => True) n).ok hp
    rw [(m₂.steady_letGo args).depth, enter_depth he, hst.depth]
  cases o <;> cases hop
  case call =>
    obtain ⟨args, m₁, hp, h1⟩ := bind_ok_iff.1 h
    obtain ⟨m₂, h2, rfl⟩ := holding_ok_iff.1 h1
    obtain ⟨_, _, hg, h3⟩ := bind_ok_iff.1 h2
    cases hg
    obtain ⟨target, _, hl, h4⟩ := bind_ok_iff.1 h3
    obtain ⟨-, rfl⟩ := require_ok hl
    exact henter hp h4
  case vcall =>
    obtain ⟨args, m₁, hp, h1⟩ := bind_ok_iff.1 h
    obtain ⟨m₂, h2, rfl⟩ := holding_ok_iff.1 h1
    cases args with
    | nil => cases h2
    | cons receiver args =>
      obtain ⟨found, m₃, hm, h3⟩ := bind_ok_iff.1 h2
      obtain ⟨rfl, -⟩ := method_ok hm
      obtain ⟨_, _, hg, h4⟩ := bind_ok_iff.1 h3
      cases hg
      obtain ⟨target, _, hl, h5⟩ := bind_ok_iff.1 h4
      obtain ⟨-, rfl⟩ := require_ok hl
      exact henter hp h5

end Exec

namespace Machine

variable {m m' : Machine} {callee : Outline} {base : List Frame}

/-- **An activation is under way**: calls that it has made stand on it, and it stands on frames that differ from `base`
in their cells alone. -/
def UnderWay (callee : Outline) (base : List Frame) (m : Machine) : Prop :=
  ∃ calls f below, m.stack.drop calls = f :: below ∧ f.outline = callee ∧ below.map Frame.bare = base.map Frame.bare

/-- **The activation returns with this step**: it hands its operands, of which there are as many as the instruction
says, to its caller, and control goes on behind the call. -/
def Returns (callee : Outline) (base : List Frame) (m m' : Machine) : Prop :=
  ∃ i frame caller rest, m.current? = some i ∧ i.op.nval? = some frame.eval.length ∧ m.stack = frame :: caller :: rest ∧
    frame.outline = callee ∧ (caller :: rest).map Frame.bare = base.map Frame.bare ∧
    m'.stack = { caller with eval := frame.eval ++ caller.eval } :: rest ∧ m'.pc = callee.returnPc + 1

theorem Steady.tail_bare (h : m.Steady m') : m'.stack.tail.map Frame.bare = m.stack.tail.map Frame.bare := by
  have hout : m'.stack.tail.map Frame.outline = m.stack.tail.map Frame.outline := by
    rw [List.map_tail, List.map_tail, h.outlines]
  exact map_bare_eq_iff.2 ⟨hout, h.operands⟩

theorem flowTo_stack (m : Machine) (flow : Flow) : (m.flowTo flow).stack = m.stack := by cases flow <;> rfl

namespace UnderWay

theorem lt_depth (h : m.UnderWay callee base) : base.length < m.depth := by
  obtain ⟨calls, f, below, hdrop, -, hbelow⟩ := h
  have hlen := congrArg List.length hdrop
  have hbase := congrArg List.length hbelow
  simp only [List.length_drop, List.length_cons, List.length_map] at hlen hbase
  simp only [Machine.depth]
  omega

theorem of_stack_eq (h : m.UnderWay callee base) (hs : m'.stack = m.stack) : m'.UnderWay callee base := by
  unfold UnderWay
  rw [hs]
  exact h

theorem of_steady (h : m.UnderWay callee base) (hst : m.Steady m') : m'.UnderWay callee base := by
  obtain ⟨calls, f, below, hdrop, hf, hbelow⟩ := h
  have hout : (m'.stack.drop calls).map Frame.outline = f.outline :: below.map Frame.outline := by
    rw [List.map_drop, hst.outlines, ← List.map_drop, hdrop, List.map_cons]
  obtain ⟨f', below', hdrop', hf', -⟩ := List.map_eq_cons_iff.1 hout
  refine ⟨calls, f', below', hdrop', hf'.trans hf, Eq.trans ?_ hbelow⟩
  -- the frames below lie in the tail of the stack, whose operands stay as well
  have htail : ∀ {fs : List Frame} {g : Frame} {gs : List Frame}, fs.drop calls = g :: gs →
      fs.tail.drop calls = gs := by
    intro fs g gs h
    rw [List.drop_tail, ← List.tail_drop, h, List.tail_cons]
  rw [← htail hdrop', ← htail hdrop, List.map_drop, List.map_drop, hst.tail_bare]

/-- **What an instruction does to an activation that is under way**: it leaves it so, ends the program, or is its
return. -/
theorem effect (h : m.UnderWay callee base) {op : Op} {flow : Flow} (he : Exec.Effect m op flow m') :
    m'.UnderWay callee base ∨ m'.stack = [] ∨
    ∃ frame caller rest, op.nval? = some frame.eval.length ∧ m.stack = frame :: caller :: rest ∧
      frame.outline = callee ∧ (caller :: rest).map Frame.bare = base.map Frame.bare ∧
      m'.stack = { caller with eval := frame.eval ++ caller.eval } :: rest ∧ flow = .jump (callee.returnPc + 1) := by
  cases he with
  | stay hst => exact .inl (h.of_steady hst)
  | jump _ _ hst => exact .inl (h.of_steady hst)
  | enter _ hst =>
    refine .inl ?_
    obtain ⟨calls, f, below, hdrop, hf, hbelow⟩ := h
    rw [hst] at hdrop
    refine ⟨calls + 1, ?_⟩
    rw [letGo_stack, List.drop_succ_cons]
    cases calls with
    | zero =>
      cases hdrop
      exact ⟨_, _, rfl, hf, hbelow⟩
    | succ calls => exact ⟨f, below, hdrop, hf, hbelow⟩
  | @leave frame caller rest hop hst =>
    obtain ⟨calls, f, below, hdrop, hf, hbelow⟩ := h
    rw [hst] at hdrop
    match calls with
    | 0 =>
      cases hdrop
      exact .inr (.inr ⟨frame, caller, rest, hop, hst, hf, hbelow, letGo_stack _ _, by rw [← hf]; rfl⟩)
    | 1 =>
      cases hdrop
      exact .inl ⟨0, _, _, letGo_stack _ _, hf, hbelow⟩
    | calls + 2 =>
      refine .inl ⟨calls + 1, f, below, ?_, hf, hbelow⟩
      rw [letGo_stack, List.drop_succ_cons]
      exact hdrop
  | finish => exact .inr (.inl (letGo_stack _ _))
  | halt => exact .inr (.inl (letGo_stack _ _))

/-- **What a step that succeeds does to it.** -/
theorem step (h : m.UnderWay callee base) (hs : m.step = (none, m')) :
    m'.UnderWay callee base ∨ m'.stack = [] ∨ Returns callee base m m' := by
  obtain ⟨i, flow, m₁, hd, -, hi, he, rfl⟩ := step_none hs
  have hstack : (m₁.flowTo flow).settle.stack = m₁.stack := by rw [settle_stack, flowTo_stack]
  have hc : m.counted.UnderWay callee base := h
  rcases hc.effect he with hu | hnil | ⟨frame, caller, rest, hop, hst, hf, hbelow, hst', rfl⟩
  · exact .inl (hu.of_stack_eq hstack)
  · exact .inr (.inl (hstack.trans hnil))
  · have hcur : m.current? = some i := current?_eq_some_iff.2 ⟨hd, hi⟩
    exact .inr (.inr ⟨i, frame, caller, rest, hcur, hop, hst, hf, hbelow, hstack.trans hst', settle_pc _⟩)

/-- It is under way as long as steps succeed and the depth is not that of its caller, unless the program ends. -/
theorem stepped (h : m.UnderWay callee base) : ∀ {n : Nat}, m.Succeeds n →
    (∀ j, j ≤ n → (m.stepped j).depth ≠ base.length) →
    (m.stepped n).UnderWay callee base ∨ (m.stepped n).stack = []
  | 0, _, _ => .inl h
  | n + 1, hn, hd => by
    obtain ⟨hn, hs⟩ := succeeds_succ.1 hn
    have hstep : (m.stepped n).step = (none, m.stepped (n + 1)) := by rw [← hs]; rfl
    rcases h.stepped hn fun j hj => hd j (Nat.le_succ_of_le hj) with hu | hnil
    · rcases hu.step hstep with hu | hnil | ⟨_, _, caller, rest, -, -, -, -, hbelow, hst, -⟩
      · exact .inl hu
      · exact .inr hnil
      · refine absurd ?_ (hd (n + 1) (Nat.le_refl _))
        have hlen := congrArg List.length hbelow
        simp only [List.length_map, List.length_cons] at hlen
        simp only [Machine.depth, hst, List.length_cons, hlen]
    · have hdone := isDone_of_succeeds hs
      rw [isDone, hnil] at hdone
      cases hdone

/-- **The step that takes the depth back to that of the caller is the return.** -/
theorem returns (h : m.UnderWay callee base) (hb : base ≠ []) {n : Nat} (hn : m.Succeeds n)
    (hd : (m.stepped n).depth = base.length) (hfirst : ∀ j, j < n → (m.stepped j).depth ≠ base.length) :
    ∃ j, n = j + 1 ∧ Returns callee base (m.stepped j) (m.stepped n) := by
  cases n with
  | zero => exact absurd hd (Nat.ne_of_gt h.lt_depth)
  | succ j =>
    refine ⟨j, rfl, ?_⟩
    obtain ⟨hj, hs⟩ := succeeds_succ.1 hn
    have hstep : (m.stepped j).step = (none, m.stepped (j + 1)) := by rw [← hs]; rfl
    have hu : (m.stepped j).UnderWay callee base := by
      rcases h.stepped hj fun k hk => hfirst k (Nat.lt_succ_of_le hk) with hu | hnil
      · exact hu
      · have hdone := isDone_of_succeeds hs
        rw [isDone, hnil] at hdone
        cases hdone
    rcases hu.step hstep with hu | hnil | hr
    · exact absurd hd (Nat.ne_of_gt hu.lt_depth)
    · rw [Machine.depth, hnil] at hd
      exact absurd (List.length_eq_zero_iff.1 hd.symm) hb
    · exact hr

end UnderWay

/-- **What a call that succeeds does**: its operands become the arguments and parameters of a frame on top of its
caller's. -/
theorem step_call {i : Instruction} {n : Nat} (hi : m.current? = some i) (hop : i.op.nargs? = some n)
    (hs : m.step = (none, m')) : ∃ caller rest callee, m.stack = caller :: rest ∧ n ≤ caller.eval.length ∧
      m'.stack = callee :: { caller with eval := caller.eval.drop n } :: rest ∧ callee.returnPc = m.pc ∧
      callee.args = (caller.eval.take n).reverse ∧ callee.params = (caller.eval.take n).reverse ∧
      ∀ v ∈ callee.locals, v = none := by
  obtain ⟨i', flow, m₁, hi', -, ho, rfl⟩ := step_ok hs
  obtain rfl : i' = i := Option.some.inj (hi'.symm.trans hi)
  have hdepth : m₁.depth = m.counted.depth + 1 := Exec.op_call_depth hop ho
  cases Exec.op_effect i'.op ho with
  | stay hst =>
    have := hst.depth
    omega
  | jump _ _ hst =>
    have := hst.depth
    omega
  | @enter nargs caller rest target scope s hop' hst hn =>
    cases hop.symm.trans hop'
    refine ⟨caller, rest, Frame.fresh scope target m.pc (caller.eval.take n).reverse s.locals.length, hst, hn, ?_,
      rfl, rfl, rfl, fun v hv => List.eq_of_mem_replicate hv⟩
    rw [settle_stack, flowTo_stack, letGo_stack]
    rfl
  | leave hop' => rw [Op.nval?_eq_none hop] at hop'; cases hop'
  | finish hop' => rw [Op.nval?_eq_none hop] at hop'; cases hop'
  | halt hop' => rw [hop'] at hop; cases hop

/-- **A call and its return.**  A call that succeeds sets a frame on its caller's whose arguments and parameters are the
operands popped, in the order they were pushed, and none of whose locals is assigned.  If steps go on to succeed until
the depth is again what it was, for the first time, then control stands behind the call; the last step was a return of
that frame; the caller's operands are those it had left and above them, latest first as everywhere, all that the frame
held; and the frames below differ in their cells alone. -/
theorem call_discipline {i : Instruction} {n : Nat} (hi : m.current? = some i) (hop : i.op.nargs? = some n)
    (hs : m.step = (none, m')) : ∃ caller rest callee, m.stack = caller :: rest ∧ n ≤ caller.eval.length ∧
      m'.stack = callee :: { caller with eval := caller.eval.drop n } :: rest ∧
      callee.args = (caller.eval.take n).reverse ∧ callee.params = (caller.eval.take n).reverse ∧
      (∀ v ∈ callee.locals, v = none) ∧
      ∀ k, m'.Succeeds k → (m'.stepped k).depth = m.depth → (∀ j, j < k → (m'.stepped j).depth ≠ m.depth) →
        (m'.stepped k).pc = m.pc + 1 ∧
        ∃ j last frame caller' rest', k = j + 1 ∧ (m'.stepped j).current? = some last ∧
          (m'.stepped j).stack.head? = some frame ∧ frame.outline = callee.outline ∧
          last.op.nval? = some frame.eval.length ∧
          (m'.stepped k).stack = caller' :: rest' ∧ caller'.outline = caller.outline ∧
          caller'.eval = frame.eval ++ caller.eval.drop n ∧
          rest'.map Frame.outline = rest.map Frame.outline ∧ rest'.map Frame.eval = rest.map Frame.eval := by
  obtain ⟨caller, rest, callee, hst, hn, hst', hpc, hargs, hparams, hlocals⟩ := step_call hi hop hs
  refine ⟨caller, rest, callee, hst, hn, hst', hargs, hparams, hlocals, fun k hk hd hfirst => ?_⟩
  have hu : m'.UnderWay callee.outline ({ caller with eval := caller.eval.drop n } :: rest) :=
    ⟨0, callee, _, hst', rfl, rfl⟩
  have hdepth : m.depth = (({ caller with eval := caller.eval.drop n } : Frame) :: rest).length := by
    rw [depth, hst]
    rfl
  rw [hdepth] at hd hfirst
  obtain ⟨j, rfl, last, frame, caller', rest', hcur, hop', hstj, hout, hbelow, hstk, hpck⟩ :=
    hu.returns (List.cons_ne_nil _ _) hk hd hfirst
  obtain ⟨hcaller, hrest⟩ := List.cons.inj hbelow
  obtain ⟨hcallerOut, hcallerEval⟩ := Prod.mk.inj hcaller
  obtain ⟨hrestOut, hrestEval⟩ := map_bare_eq_iff.1 hrest
  refine ⟨hpck.trans (by rw [← hpc]; rfl), j, last, frame, _, rest', rfl, hcur, by rw [hstj]; rfl, hout, hop', hstk,
    hcallerOut, congrArg (frame.eval ++ ·) hcallerEval, hrestOut, hrestEval⟩

/-- A program that has two characters swapped by a function, with a truth value below them. -/
def swapping : Image where
  code := #[⟨⟨1, 1⟩, .litBool true⟩, ⟨⟨1, 1⟩, .litChar 1⟩, ⟨⟨1, 1⟩, .litChar 2⟩, ⟨⟨1, 1⟩, .call 0 1 2⟩,
    ⟨⟨1, 1⟩, .halt 3⟩, ⟨⟨2, 1⟩, .begin 1⟩, ⟨⟨2, 1⟩, .paramVal 1⟩, ⟨⟨2, 1⟩, .paramVal 0⟩, ⟨⟨2, 1⟩, .ret 2⟩]
  labels := #[⟨"swap", 5⟩]
  strings := #[]
  classes := #[]
  scopes := #[.global [], .callable "swap" ["a", "b"] ["c"]]
  globalScope := 0

/-- That program about to start, with nothing to read. -/
def swappingStart : Machine :=
  ⟨swapping, {}, 0, [.fresh 0 0 0 [] 0], 0, none, [], [], { console := ⟨.script [], [], ""⟩, random := .ofSeed 0 }⟩

/-- The function gets its arguments in the order they were pushed, and what it returns lies above the truth value. -/
theorem call_discipline_swapping :
    (∃ caller, (swappingStart.stepped 4).stack = [.fresh 1 5 3 [.char 1, .char 2] 1, caller] ∧
      caller.eval = [.bool true]) ∧
    (swappingStart.stepped 8).pc = 4 ∧
    ∃ caller, (swappingStart.stepped 8).stack = [caller] ∧ caller.eval = [.char 1, .char 2, .bool true] := by
  have hs : (swappingStart.stepped 3).step = (none, swappingStart.stepped 4) := rfl
  obtain ⟨_, _, _, hst, -, -, -, -, -, hreturn⟩ :=
    call_discipline (n := 2) (i := ⟨⟨1, 1⟩, .call 0 1 2⟩) rfl rfl hs
  have hk : (swappingStart.stepped 4).Succeeds 4 := by
    unfold Succeeds
    decide
  have hfirst : ∀ j, j < 4 → ((swappingStart.stepped 4).stepped j).depth ≠ (swappingStart.stepped 3).depth := by decide
  obtain ⟨hpc, -⟩ := hreturn 4 hk rfl hfirst
  exact ⟨⟨_, rfl, rfl⟩, hpc, _, rfl, rfl⟩

end Machine

end PseudoVm
