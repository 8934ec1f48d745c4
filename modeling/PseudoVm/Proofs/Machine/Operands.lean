import PseudoVm.Proofs.Machine.Locations
/-!
# Machine.Operands: following operands through an instruction

An instruction pops its operands, looks at them and pushes what it makes of them.  A machine with other operands in
flight than another one (`Machine.WithOperands`) is that one for every cell: operands are no cells, and what is popped is
let go of without a trace in the frames and the heap.  So an instruction that is about to be executed (`Machine.Ready`)
is followed by its operands alone.
-/
namespace PseudoVm

namespace Machine

/-- The operands in flight in the latest frame, the latest first. -/
def operands? (m : Machine) : Option (List Value) := m.stack.head?.map Frame.eval

/-- An instruction is about to be executed on some operands, and the limit admits it. -/
structure Ready (m : Machine) (o : Op) (operands : List Value) : Prop where
  current : m.current?.map (·.op) = some o
  operands : m.operands? = some operands
  budget : m.executed < m.limits.maxInstructions

/-- The machine with other operands in flight: its frames are the same otherwise, and so is its heap. -/
def WithOperands (m : Machine) (eval : List Value) (m' : Machine) : Prop :=
  ∃ f rest, m.stack = f :: rest ∧ m'.stack = { f with eval := eval } :: rest ∧ m'.world.heap = m.world.heap

variable {m m₁ m' : Machine} {o : Op} {eval operands : List Value} {v : Value} {r : Reference}

theorem operands?_eq_some_iff : m.operands? = some eval ↔ ∃ f rest, m.stack = f :: rest ∧ f.eval = eval := by
  unfold operands?
  cases m.stack <;> simp

theorem operands?_of_stack_eq (h : m'.stack = m.stack) : m'.operands? = m.operands? := by
  rw [operands?, operands?, h]

namespace WithOperands

theorem of_operands? (h : m.operands? = some eval) : m.WithOperands eval m := by
  obtain ⟨f, rest, hst, rfl⟩ := operands?_eq_some_iff.1 h
  exact ⟨f, rest, hst, hst, rfl⟩

theorem operands?_eq (h : m.WithOperands eval m') : m'.operands? = some eval := by
  obtain ⟨f, rest, -, hst, -⟩ := h
  exact operands?_eq_some_iff.2 ⟨_, rest, hst, rfl⟩

theorem of_stack_eq (h : m.WithOperands eval m₁) (hst : m'.stack = m₁.stack)
    (hheap : m'.world.heap = m₁.world.heap) : m.WithOperands eval m' := by
  obtain ⟨f, rest, hm, hm₁, hw⟩ := h
  exact ⟨f, rest, hm, hst.trans hm₁, hheap.trans hw⟩

theorem letGo (h : m.WithOperands eval m₁) (vs : List Value) : m.WithOperands eval (m₁.letGo vs) :=
  h.of_stack_eq (letGo_stack m₁ vs) (by rw [letGo_world])

theorem settle (h : m.WithOperands eval m₁) : m.WithOperands eval m₁.settle :=
  h.of_stack_eq (settle_stack m₁) m₁.settle_heap

theorem flowTo (h : m.WithOperands eval m₁) (flow : Flow) : m.WithOperands eval (m₁.flowTo flow) :=
  h.of_stack_eq (flowTo_stack m₁ flow) (by rw [flowTo_world])

/-- **Operands are no cells**, so every cell is as it was. -/
theorem peek_eq (h : m.WithOperands eval m') (r : Reference) : m'.peek r = m.peek r := by
  obtain ⟨f, rest, hst, hst', hheap⟩ := h
  have hplace : m'.place? = m.place? := by
    funext n
    rw [place?, place?, depth, depth, hst, hst', List.length_cons, List.length_cons]
  have hframe : ∀ n, (m.frame? n = none ∧ m'.frame? n = none) ∨
      ∃ g e, m.frame? n = some g ∧ m'.frame? n = some { g with eval := e } := by
    intro n
    unfold frame?
    rw [hplace, hst, hst']
    cases m.place? n with
    | none => exact .inl ⟨rfl, rfl⟩
    | some i =>
      cases i with
      | zero => exact .inr ⟨f, eval, rfl, rfl⟩
      | succ i =>
        simp only [Option.bind_some, List.getElem?_cons_succ]
        cases rest[i]? with
        | none => exact .inl ⟨rfl, rfl⟩
        | some g => exact .inr ⟨g, g.eval, rfl, rfl⟩
  cases r with
  | global slot =>
    obtain ⟨hg, hg'⟩ | ⟨g, e, hg, hg'⟩ := hframe 0
    · simp only [peek, hg, hg']
    · simp only [peek, hg, hg']
      rfl
  | «local» n slot | param n slot =>
    obtain ⟨hg, hg'⟩ | ⟨g, e, hg, hg'⟩ := hframe n
    · simp only [peek, hg, hg']
    · simp only [peek, hg, hg']
      rfl
  | element | field => simp only [peek, hheap]

theorem pop (h : m.WithOperands (v :: eval) m₁) : ∃ m₂, Exec.pop m₁ = .ok v m₂ ∧ m.WithOperands eval m₂ := by
  obtain ⟨f, rest, hm, hm₁, hheap⟩ := h
  refine ⟨{ m₁ with stack := { f with eval := eval } :: rest }, ?_, f, rest, hm, rfl, hheap⟩
  rw [Exec.pop_eq, hm₁]

theorem popAs {α : Type} (as : Value → Except Fault α) {a : α} (h : m.WithOperands (v :: eval) m₁)
    (ha : as v = .ok a) : ∃ m₂, Exec.popAs as m₁ = .ok a m₂ ∧ m.WithOperands eval m₂ := by
  obtain ⟨m₂, hpop, h₂⟩ := h.pop
  refine ⟨m₂.letGo [v], Exec.bind_ok_iff.2 ⟨v, m₂, hpop, Exec.bind_ok_iff.2 ⟨(), _, rfl, ?_⟩⟩, h₂.letGo [v]⟩
  rw [ha]
  rfl

theorem push (h : m.WithOperands eval m₁) (v : Value) :
    ∃ m₂, Exec.push v m₁ = .ok () m₂ ∧ m.WithOperands (v :: eval) m₂ := by
  obtain ⟨f, rest, hm, hm₁, hheap⟩ := h
  have htop : Exec.top m₁ = .ok { f with eval := eval } m₁ := by rw [Exec.top_eq, hm₁]
  refine ⟨_, Exec.bind_ok_iff.2 ⟨_, m₁, htop, rfl⟩, f, rest, hm, ?_, ?_⟩
  · dsimp only
    rw [hm₁]
  · dsimp only
    rw [hm₁]
    exact hheap

end WithOperands

namespace Ready

theorem withOperands (h : m.Ready o operands) : m.WithOperands operands m.counted := by
  have hm : m.WithOperands operands m := .of_operands? h.operands
  exact hm.of_stack_eq rfl rfl

theorem step_eq_op (h : m.Ready o operands) : m.step =
    match Exec.op o m.counted with
    | .ok flow m' => (none, (m'.flowTo flow).settle)
    | .error s m' => (some s, m'.settle) := by
  obtain ⟨i, hi, rfl⟩ := Option.map_eq_some_iff.1 h.current
  obtain ⟨hdone, hinstr⟩ := current?_eq_some_iff.1 hi
  have hstep := m.step_eq
  rw [hdone, if_neg Bool.false_ne_true, if_neg (Nat.not_le_of_lt h.budget), hinstr] at hstep
  exact hstep

theorem step_plain {act : Exec Unit} (h : m.Ready o operands) (ho : Exec.op o = Exec.plain act)
    (hact : act m.counted = .ok () m₁) : m.step = (none, (m₁.flowTo .next).settle) := by
  have hop : Exec.op o m.counted = .ok .next m₁ := by
    rw [ho]
    exact Exec.bind_ok_iff.2 ⟨(), m₁, hact, rfl⟩
  rw [h.step_eq_op, hop]

theorem step_plain_error {act : Exec Unit} {s : Stop} (h : m.Ready o operands) (ho : Exec.op o = Exec.plain act)
    (hact : act m.counted = .error s m₁) : m.step = (some s, m₁.settle) := by
  have hop : Exec.op o m.counted = .error s m₁ := by
    rw [ho]
    exact Exec.bind_error_iff.2 (.inl hact)
  rw [h.step_eq_op, hop]

end Ready

end Machine

/-- **Two operands of a type are replaced by what an operator makes of them**; if that is a fault, nothing is pushed. -/
theorem Exec.binary_withOperands {α : Type} (as : Value → Except Fault α) (f : α → α → Except Fault Value) {u v : Value}
    {a b : α} {m m₁ : Machine} {eval : List Value} (h : m.WithOperands (v :: u :: eval) m₁) (hb : as v = .ok b)
    (ha : as u = .ok a) :
    (∀ w, f a b = .ok w → ∃ m₂, Exec.binary as f m₁ = .ok () m₂ ∧ m.WithOperands (w :: eval) m₂) ∧
    (∀ e, f a b = .error e → ∃ m₂, Exec.binary as f m₁ = .error (.fault e) m₂) := by
  obtain ⟨m₂, hpop₂, h₂⟩ := h.popAs as hb
  obtain ⟨m₃, hpop₃, h₃⟩ := h₂.popAs as ha
  have hcheck : ∀ {x : Except Fault Value}, f a b = x → Exec.check (f a b) m₃ = Exec.check x m₃ := fun hx => by rw [hx]
  refine ⟨fun w hw => ?_, fun e he => ?_⟩
  · obtain ⟨m₄, hpush, h₄⟩ := h₃.push w
    refine ⟨m₄, Exec.bind_ok_iff.2 ⟨b, m₂, hpop₂, Exec.bind_ok_iff.2 ⟨a, m₃, hpop₃, ?_⟩⟩, h₄⟩
    exact Exec.bind_ok_iff.2 ⟨w, m₃, hcheck hw, hpush⟩
  · refine ⟨m₃, Exec.bind_error_iff.2 (.inr ⟨b, m₂, hpop₂, Exec.bind_error_iff.2 (.inr ⟨a, m₃, hpop₃, ?_⟩)⟩)⟩
    exact Exec.bind_error_iff.2 (.inl (hcheck he))

end PseudoVm
