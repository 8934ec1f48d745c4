import PseudoVm.Proofs.Machine.CallSites
import PseudoVm.Proofs.Machine.SlotSafety
/-!
# Machine.DeadReference: references to frames that have returned

A reference to a local or a parameter names a frame by its place in the stack, and no more.  Once the frame has
returned, an instruction that goes through the reference fails for as long as no frame stands at that place
(`Machine.step_dead`).  A frame that comes to stand there was made by a later call, and the reference then leads to the
slot of that number in that frame, and to no other (`Machine.reference_after_return`): what the reference was made for
leaves no trace in it (`Machine.reference_reused`).
-/
namespace PseudoVm

/-- The place, counted from the bottom, of the frame that a reference leads into. -/
def Reference.frame? : Reference → Option Nat
  | .local frame _ | .param frame _ => some frame
  | _ => none

namespace Op

/-- The reference that an instruction makes to a slot of the frame at a place. -/
def frameRef? (place : Nat) : Op → Option Reference
  | .localRef slot => some (.local place slot)
  | .paramRef slot => some (.param place slot)
  | _ => none

/-- Whether an instruction loads or stores through a reference that it is handed. -/
def goesThrough : Op → Bool
  | .deref | .paramPtr _ | .store | .storeChar | .incrInt _ | .incrReal _ | .forInit _ | .forStep _ => true
  | _ => false

/-- Whether an instruction stores through a reference that it is handed. -/
def storesThrough : Op → Bool
  | .store | .storeChar | .incrInt _ | .incrReal _ | .forInit _ | .forStep _ => true
  | _ => false

end Op

namespace Frame

/-- **The reference that an instruction loads or stores through**, if its operands are such that it gets that far. -/
def through? (f : Frame) : Op → Option Reference
  | .deref | .incrInt _ | .incrReal _ =>
    match f.eval with
    | .ref r :: _ => some r
    | _ => none
  | .store =>
    match f.eval with
    | .ref r :: _ :: _ => some r
    | _ => none
  | .storeChar =>
    match f.eval with
    | .int _ :: .ref r :: .char _ :: _ => some r
    | _ => none
  | .forInit kind =>
    match f.eval with
    | step :: stop :: start :: .ref r :: _ =>
      match Operators.continues kind start stop step with
      | .ok _ => some r
      | .error _ => none
    | _ => none
  | .forStep _ =>
    match f.eval with
    | _ :: _ :: .ref r :: _ => some r
    | _ => none
  | .paramPtr slot =>
    match f.params[slot]? with
    | some (.ref r) => some r
    | _ => none
  | _ => none

/-- What a frame has in the slot that a reference names. -/
def look (f : Frame) : Reference → Except Fault (Option Value)
  | .param _ slot => (Machine.paramOf f slot).map some
  | .global slot | .local _ slot => Machine.localOf f slot
  | r => .error (Machine.missingFrame r)

/-- A frame with a value in the slot that a reference names. -/
def put (f : Frame) (v : Value) : Reference → Frame
  | .param _ slot => { f with params := f.params.set slot v }
  | .global slot | .local _ slot => { f with locals := f.locals.set slot (some v) }
  | _ => f

end Frame

namespace Machine

variable {m : Machine} {r : Reference} {k : Nat}

/-! ## Loads and stores -/

theorem frame?_eq_none (h : m.depth ≤ k) : m.frame? k = none := by
  rw [frame?, place?, if_neg (Nat.not_lt_of_le h)]
  rfl

/-- **No frame at its place, no access**: both a load and a store through a reference fail. -/
theorem peek_dead (hr : r.frame? = some k) (h : m.depth ≤ k) : m.peek r = .error (.internal .deadFrame) := by
  cases r <;> cases hr <;> simp only [peek, frame?_eq_none h, missingFrame]

theorem load_dead (hr : r.frame? = some k) (h : m.depth ≤ k) : m.load r = .error (.fault (.internal .deadFrame)) := by
  rw [load, peek_dead hr h]

theorem store_dead (hr : r.frame? = some k) (h : m.depth ≤ k) (v : Value) :
    m.store r v = .error (.internal .deadFrame) := by
  rw [store_eq_peek, peek_dead hr h]

/-- **With a frame at its place, a reference leads to that frame's slot alone.** -/
theorem peek_live (hr : r.frame? = some k) {g : Frame} (hg : m.frame? k = some g) : m.peek r = g.look r := by
  cases r <;> cases hr <;> simp only [peek, hg, Frame.look]

theorem modifyFrame_depth (m : Machine) (k : Nat) (g : Frame → Frame) : (m.modifyFrame k g).depth = m.depth := by
  unfold modifyFrame
  split
  · exact List.length_modify ..
  · rfl

theorem modifyFrame_world (m : Machine) (k : Nat) (g : Frame → Frame) : (m.modifyFrame k g).world = m.world := by
  unfold modifyFrame
  split <;> rfl

theorem frame?_modifyFrame (m : Machine) (k : Nat) (g : Frame → Frame) (n : Nat) :
    (m.modifyFrame k g).frame? n = if n = k then (m.frame? k).map g else m.frame? n := by
  by_cases hk : k < m.depth
  · have hplacek : m.place? k = some (m.depth - 1 - k) := if_pos hk
    have hstack : (m.modifyFrame k g).stack = m.stack.modify (m.depth - 1 - k) g := by rw [modifyFrame, hplacek]
    have hplace : (m.modifyFrame k g).place? n = m.place? n := by rw [place?, place?, modifyFrame_depth]
    rw [frame?, hplace, hstack]
    split
    · rename_i hnk
      rw [hnk, frame?, hplacek]
      exact List.getElem?_modify_eq ..
    · rename_i hnk
      unfold frame? place?
      split
      · exact List.getElem?_modify_ne g m.stack (by omega)
      · rfl
  · have hnone := frame?_eq_none (Nat.le_of_not_lt hk)
    have hsame : m.modifyFrame k g = m := by
      rw [modifyFrame, place?, if_neg hk]
    rw [hsame, hnone]
    split
    · rename_i hnk
      rw [hnk, hnone]
      rfl
    · rfl

theorem write_eq (hr : r.frame? = some k) (v : Value) : m.write r v = m.modifyFrame k (·.put v r) := by
  cases r <;> cases hr <;> rfl

/-- **A store changes that slot alone.** -/
theorem store_live (hr : r.frame? = some k) {g : Frame} (hg : m.frame? k = some g) {v : Value} {m' : Machine}
    (h : m.store r v = .ok m') : m'.world = m.world ∧ m'.depth = m.depth ∧ m'.frame? k = some (g.put v r) ∧
      ∀ n, n ≠ k → m'.frame? n = m.frame? n := by
  rw [store_eq_peek] at h
  split at h <;> cases h
  rename_i old _
  have hframe : ∀ n, ((m.write r v).letGo old.toList).frame? n = (m.write r v).frame? n := by
    intro n
    unfold frame? place? depth
    rw [letGo_stack]
  refine ⟨?_, ?_, ?_, fun n hn => ?_⟩
  · rw [letGo_world, write_eq hr, modifyFrame_world]
  · rw [depth, letGo_stack, ← depth, write_eq hr, modifyFrame_depth]
  · rw [hframe, write_eq hr, frame?_modifyFrame, if_pos rfl, hg]
    rfl
  · rw [hframe, write_eq hr, frame?_modifyFrame, if_neg hn]

end Machine

namespace Exec

variable {α β : Type} {s : Stop} {m m₁ : Machine}

/-- It stops for a reason, whatever it leaves behind. -/
def Fails (s : Stop) (x : Exec α) (m : Machine) : Prop := ∃ m', x m = .error s m'

namespace Fails

theorem bind {x : Exec α} (h : Fails s x m) (k : α → Exec β) : Fails s (x >>= k) m := by
  obtain ⟨m', h⟩ := h
  exact ⟨m', bind_error_iff.2 (.inl h)⟩

theorem after {x : Exec α} {k : α → Exec β} {a : α} (hx : x m = .ok a m₁) (h : Fails s (k a) m₁) :
    Fails s (x >>= k) m := by
  obtain ⟨m', h⟩ := h
  exact ⟨m', bind_error_iff.2 (.inr ⟨a, m₁, hx, h⟩)⟩

theorem holding {x : Exec α} (h : Fails s x m) (vs : List Value) : Fails s (holding vs x) m := by
  obtain ⟨m', h⟩ := h
  exact ⟨m'.letGo vs, holding_error_iff.2 ⟨m', h, rfl⟩⟩

theorem plain {x : Exec Unit} (h : Fails s x m) : Fails s (plain x) m := h.bind _

end Fails

end Exec

namespace Machine

/-- A frame stands on top, and so many are there. -/
def AtTop (m : Machine) (f : Frame) (depth : Nat) : Prop := ∃ rest, m.stack = f :: rest ∧ rest.length + 1 = depth

namespace AtTop

variable {m : Machine} {f : Frame} {depth : Nat} {v : Value} {eval : List Value}

theorem depth_eq (h : m.AtTop f depth) : m.depth = depth := by
  obtain ⟨rest, hst, hd⟩ := h
  rw [Machine.depth, hst, List.length_cons, hd]

theorem letGo (h : m.AtTop f depth) (vs : List Value) : (m.letGo vs).AtTop f depth := by
  unfold AtTop
  rw [letGo_stack]
  exact h

theorem pop (h : m.AtTop f depth) (he : f.eval = v :: eval) :
    ∃ m₁, Exec.pop m = .ok v m₁ ∧ m₁.AtTop { f with eval := eval } depth := by
  obtain ⟨rest, hst, hd⟩ := h
  refine ⟨{ m with stack := { f with eval := eval } :: rest }, ?_, rest, rfl, hd⟩
  rw [Exec.pop_eq, hst]
  dsimp only
  rw [he]

theorem popAs {α : Type} (h : m.AtTop f depth) (as : Value → Except Fault α) {a : α} (he : f.eval = v :: eval)
    (ha : as v = .ok a) : ∃ m₁, Exec.popAs as m = .ok a m₁ ∧ m₁.AtTop { f with eval := eval } depth := by
  obtain ⟨m₁, hpop, h₁⟩ := h.pop he
  refine ⟨m₁.letGo [v], Exec.bind_ok_iff.2 ⟨v, m₁, hpop, Exec.bind_ok_iff.2 ⟨(), _, rfl, ?_⟩⟩, h₁.letGo [v]⟩
  rw [ha]
  rfl

theorem of_pop {m₁ : Machine} (h : m.AtTop f depth) (hp : Exec.pop m = .ok v m₁) :
    ∃ eval, f.eval = v :: eval ∧ m₁.AtTop { f with eval := eval } depth := by
  obtain ⟨rest, hst, hd⟩ := h
  rw [Exec.pop_eq, hst] at hp
  dsimp only at hp
  split at hp <;> cases hp
  rename_i he
  exact ⟨_, he, rest, rfl, hd⟩

theorem of_popAs {α : Type} {as : Value → Except Fault α} {a : α} {m₁ : Machine} (h : m.AtTop f depth)
    (hp : Exec.popAs as m = .ok a m₁) :
    ∃ v eval, f.eval = v :: eval ∧ as v = .ok a ∧ m₁.AtTop { f with eval := eval } depth := by
  obtain ⟨v, m₂, hpop, hrest⟩ := Exec.bind_ok_iff.1 hp
  obtain ⟨_, _, hlet, hcheck⟩ := Exec.bind_ok_iff.1 hrest
  cases hlet
  obtain ⟨eval, he, ht⟩ := h.of_pop hpop
  cases ha : as v with
  | error e =>
    rw [ha] at hcheck
    cases hcheck
  | ok b =>
    rw [ha] at hcheck
    cases hcheck
    exact ⟨v, eval, he, ha, ht.letGo [v]⟩

end AtTop

end Machine

namespace Exec

variable {m : Machine} {f : Frame} {depth k : Nat} {r : Reference}

theorem fails_load (h : m.AtTop f depth) (hr : r.frame? = some k) (hd : depth ≤ k) :
    Fails (.fault (.internal .deadFrame)) (load r) m := by
  refine ⟨m, ?_⟩
  rw [load_eq, Machine.load_dead hr (h.depth_eq ▸ hd)]

theorem fails_store (h : m.AtTop f depth) (hr : r.frame? = some k) (hd : depth ≤ k) (v : Value) :
    Fails (.fault (.internal .deadFrame)) (store r v) m := by
  refine ⟨m.letGo [v], ?_⟩
  rw [store_eq, Machine.store_dead hr (h.depth_eq ▸ hd)]

theorem fails_increment {α : Type} (as : Value → Except Fault α) (g : α → Value) (h : m.AtTop f depth)
    {eval : List Value} (he : f.eval = .ref r :: eval) (hr : r.frame? = some k) (hd : depth ≤ k) :
    Fails (.fault (.internal .deadFrame)) (increment as g) m := by
  obtain ⟨m₁, h₁, ht⟩ := h.popAs Value.asReference he rfl
  exact .after h₁ <| (fails_load ht hr hd).bind _

theorem fails_store_op (h : m.AtTop f depth) {v : Value} {eval : List Value} (he : f.eval = .ref r :: v :: eval)
    (hr : r.frame? = some k) (hd : depth ≤ k) : Fails (.fault (.internal .deadFrame)) (op .store) m := by
  obtain ⟨m₁, h₁, ht₁⟩ := h.popAs Value.asReference he rfl
  obtain ⟨m₂, h₂, ht₂⟩ := ht₁.pop rfl
  exact .plain <| .after h₁ <| .holding (.after h₂ <| fails_store ht₂ hr hd v) _

theorem fails_storeChar (h : m.AtTop f depth) {i : Int64} {c : UInt8} {eval : List Value}
    (he : f.eval = .int i :: .ref r :: .char c :: eval) (hr : r.frame? = some k) (hd : depth ≤ k) :
    Fails (.fault (.internal .deadFrame)) storeChar m := by
  obtain ⟨m₁, h₁, ht₁⟩ := h.popAs Value.asInt he rfl
  obtain ⟨m₂, h₂, ht₂⟩ := ht₁.popAs Value.asReference rfl rfl
  obtain ⟨m₃, h₃, ht₃⟩ := ht₂.popAs Value.asChar rfl rfl
  exact .after h₁ <| .after h₂ <| .holding (.after h₃ <| (fails_load ht₃ hr hd).bind _) _

theorem fails_forInit (kind : Counter) (h : m.AtTop f depth) {step stop start : Value} {eval : List Value} {more : Bool}
    (he : f.eval = step :: stop :: start :: .ref r :: eval)
    (hc : Operators.continues kind start stop step = .ok more) (hr : r.frame? = some k) (hd : depth ≤ k) :
    Fails (.fault (.internal .deadFrame)) (forInit kind) m := by
  obtain ⟨m₁, h₁, ht₁⟩ := h.pop he
  obtain ⟨m₂, h₂, ht₂⟩ := ht₁.pop rfl
  obtain ⟨m₃, h₃, ht₃⟩ := ht₂.pop rfl
  obtain ⟨m₄, h₄, ht₄⟩ := ht₃.popAs Value.asReference rfl rfl
  have hmore : check (Operators.continues kind start stop step) m₄ = .ok more m₄ := by
    rw [hc]
    rfl
  exact .after h₁ <| .holding (.after h₂ <| .holding (.after h₃ <| .holding (.after h₄ <| .holding
    (.after hmore <| (fails_store ht₄ hr hd start).bind _) _) _) _) _

theorem fails_forStep (kind : Counter) (h : m.AtTop f depth) {step stop : Value} {eval : List Value}
    (he : f.eval = step :: stop :: .ref r :: eval) (hr : r.frame? = some k) (hd : depth ≤ k) :
    Fails (.fault (.internal .deadFrame)) (forStep kind) m := by
  obtain ⟨m₁, h₁, ht₁⟩ := h.pop he
  obtain ⟨m₂, h₂, ht₂⟩ := ht₁.pop rfl
  obtain ⟨m₃, h₃, ht₃⟩ := ht₂.popAs Value.asReference rfl rfl
  exact .after h₁ <| .holding (.after h₂ <| .holding (.after h₃ <| (fails_load ht₃ hr hd).bind _) _) _

theorem fails_pointee (h : m.AtTop f depth) {slot : Nat} (hp : f.params[slot]? = some (.ref r))
    (hr : r.frame? = some k) (hd : depth ≤ k) : Fails (.fault (.internal .deadFrame)) (pointee slot) m := by
  have hload := Machine.load_dead hr (h.depth_eq ▸ hd)
  obtain ⟨rest, hst, -⟩ := h
  have hparam : param slot m = .ok (.ref r) m := by rw [param_eq hst, hp]
  have href : check (Value.ref r).asReference m = .ok r m := rfl
  refine .after hparam <| .after href <| .after (get_eq m) ⟨m, ?_⟩
  rw [hload]
  rfl

/-- **Whatever goes through a reference whose frame is not there fails.** -/
theorem fails_op {o : Op} (h : m.AtTop f depth) (ho : f.through? o = some r) (hr : r.frame? = some k)
    (hd : depth ≤ k) : Fails (.fault (.internal .deadFrame)) (op o) m := by
  cases o
  case deref =>
    dsimp only [Frame.through?] at ho
    split at ho <;> cases ho
    rename_i he
    obtain ⟨m₁, h₁, ht⟩ := h.popAs Value.asReference he rfl
    exact .plain <| .after h₁ <| (fails_load ht hr hd).bind _
  case incrInt | incrReal =>
    dsimp only [Frame.through?] at ho
    split at ho <;> cases ho
    rename_i he
    exact .plain <| fails_increment _ _ h he hr hd
  case store =>
    dsimp only [Frame.through?] at ho
    split at ho <;> cases ho
    rename_i he
    exact fails_store_op h he hr hd
  case storeChar =>
    dsimp only [Frame.through?] at ho
    split at ho <;> cases ho
    rename_i he
    exact .plain <| fails_storeChar h he hr hd
  case forInit kind =>
    dsimp only [Frame.through?] at ho
    split at ho
    · rename_i he
      split at ho <;> cases ho
      rename_i hc
      exact .plain <| fails_forInit kind h he hc hr hd
    · cases ho
  case forStep kind =>
    dsimp only [Frame.through?] at ho
    split at ho <;> cases ho
    rename_i he
    exact .plain <| fails_forStep kind h he hr hd
  case paramPtr slot =>
    dsimp only [Frame.through?] at ho
    split at ho <;> cases ho
    rename_i hp
    exact .plain <| (fails_pointee h hp hr hd).bind _
  all_goals cases ho

theorem eq_ref_of_asReference {v : Value} (h : v.asReference = .ok r) : v = .ref r := by
  cases v <;> cases h
  rfl

theorem eq_int_of_asInt {v : Value} {n : Int64} (h : v.asInt = .ok n) : v = .int n := by
  cases v <;> cases h
  rfl

theorem eq_char_of_asChar {v : Value} {c : UInt8} (h : v.asChar = .ok c) : v = .char c := by
  cases v <;> cases h
  rfl

theorem stack_of_push {m' : Machine} {v : Value} {rest : List Frame} (hst : m.stack = f :: rest)
    (h : push v m = .ok () m') : m'.stack = { f with eval := v :: f.eval } :: rest := by
  obtain ⟨g, m₁, h₁, h₂⟩ := bind_ok_iff.1 h
  rw [top_eq, hst] at h₁
  cases h₁
  cases h₂
  dsimp only
  rw [hst]

theorem plain_ok {x : Exec Unit} {m' : Machine} {flow : Flow} (h : plain x m = .ok flow m') : x m = .ok () m' := by
  obtain ⟨_, _, h₁, h₂⟩ := bind_ok_iff.1 h
  cases h₂
  exact h₁

theorem eq_ref_of_popAs {m₁ : Machine} (h : m.AtTop f depth) (hp : popAs Value.asReference m = .ok r m₁) :
    ∃ eval, f.eval = .ref r :: eval ∧ m₁.AtTop { f with eval := eval } depth := by
  obtain ⟨v, eval, he, hv, ht⟩ := h.of_popAs hp
  cases eq_ref_of_asReference hv
  exact ⟨eval, he, ht⟩

/-! ### What comes to a store -/

variable {α : Type} {m' m₁ : Machine}

theorem Within.world {pops : Bool} {x : Exec α} (hx : Within pops x) {a : α} (h : x m = .ok a m₁) :
    m₁.world = m.world := by
  obtain ⟨k, loose, -, rfl⟩ := hx.ok h
  rfl

theorem pop_world {v : Value} (h : pop m = .ok v m₁) : m₁.world = m.world :=
  within_pop.world h

theorem popAs_world {as : Value → Except Fault α} {a : α} (h : popAs as m = .ok a m₁) : m₁.world = m.world :=
  (within_popAs as).world h

theorem check_world {x : Except Fault α} {a : α} (h : check x m = .ok a m₁) : m₁.world = m.world :=
  (show Within true (check x) from within_check x).world h

theorem load_world {v : Value} (h : load r m = .ok v m₁) : m₁.world = m.world :=
  (show Within true (load r) from within_load r).world h

theorem push_world {v : Value} (h : push v m = .ok () m₁) : m₁.world = m.world := by
  obtain ⟨g, m₂, h₁, h₂⟩ := bind_ok_iff.1 h
  obtain ⟨-, rfl⟩ := top_eq_ok h₁
  cases h₂
  dsimp only
  split <;> rfl

theorem holding_world {vs : List Value} {x : Exec α} {a : α} (h : holding vs x m = .ok a m') :
    ∃ m₁, x m = .ok a m₁ ∧ m'.world = m₁.world := by
  obtain ⟨m₁, hx, rfl⟩ := holding_ok_iff.1 h
  exact ⟨m₁, hx, m₁.letGo_world vs⟩

/-- Something has been stored through a reference, and that is all that has been done to the world. -/
def StoredThrough (r : Reference) (m m' : Machine) : Prop :=
  ∃ v m₁ m₂, m₁.world = m.world ∧ store r v m₁ = .ok () m₂ ∧ m'.world = m₂.world

theorem store_stores (h : m.AtTop f depth) {flow : Flow} (hop : op .store m = .ok flow m') :
    ∃ r v eval, f.eval = .ref r :: v :: eval ∧ StoredThrough r m m' := by
  obtain ⟨r, m₁, h₁, hrest⟩ := bind_ok_iff.1 (plain_ok hop)
  obtain ⟨m₃, hrest, hw⟩ := holding_world hrest
  obtain ⟨v, m₂, h₂, h₃⟩ := bind_ok_iff.1 hrest
  obtain ⟨eval, he, ht⟩ := eq_ref_of_popAs h h₁
  obtain ⟨eval', he', -⟩ := ht.of_pop h₂
  dsimp only at he'
  exact ⟨r, v, eval', by rw [he, he'], v, m₂, m₃, by rw [pop_world h₂, popAs_world h₁], h₃, hw⟩

theorem increment_stores {as : Value → Except Fault α} {g : α → Value} (h : m.AtTop f depth)
    (hop : increment as g m = .ok () m') : ∃ r eval, f.eval = .ref r :: eval ∧ StoredThrough r m m' := by
  obtain ⟨r, m₁, h₁, hrest⟩ := bind_ok_iff.1 hop
  obtain ⟨v, m₂, h₂, hrest⟩ := bind_ok_iff.1 hrest
  obtain ⟨a, m₃, h₃, h₄⟩ := bind_ok_iff.1 hrest
  obtain ⟨eval, he, -⟩ := eq_ref_of_popAs h h₁
  exact ⟨r, eval, he, g a, m₃, m', by rw [check_world h₃, load_world h₂, popAs_world h₁], h₄, rfl⟩

theorem storeChar_stores (h : m.AtTop f depth) (hop : storeChar m = .ok () m') :
    ∃ n r c eval, f.eval = .int n :: .ref r :: .char c :: eval ∧ StoredThrough r m m' := by
  obtain ⟨n, m₁, h₁, hrest⟩ := bind_ok_iff.1 hop
  obtain ⟨r, m₂, h₂, hrest⟩ := bind_ok_iff.1 hrest
  obtain ⟨m₇, hrest, hw⟩ := holding_world hrest
  obtain ⟨c, m₃, h₃, hrest⟩ := bind_ok_iff.1 hrest
  obtain ⟨old, m₄, h₄, hrest⟩ := bind_ok_iff.1 hrest
  obtain ⟨bytes, m₅, h₅, hrest⟩ := bind_ok_iff.1 hrest
  obtain ⟨i, m₆, h₆, h₇⟩ := bind_ok_iff.1 hrest
  obtain ⟨_, eval₁, he₁, hn, ht₁⟩ := h.of_popAs h₁
  obtain ⟨eval₂, he₂, ht₂⟩ := eq_ref_of_popAs ht₁ h₂
  obtain ⟨_, eval₃, he₃, hc, -⟩ := ht₂.of_popAs h₃
  cases eq_int_of_asInt hn
  cases eq_char_of_asChar hc
  dsimp only at he₂ he₃
  have hworld : m₆.world = m.world := by
    rw [check_world h₆, check_world h₅, load_world h₄, popAs_world h₃, popAs_world h₂, popAs_world h₁]
  exact ⟨n, r, c, eval₃, by rw [he₁, he₂, he₃], _, m₆, m₇, hworld, h₇, hw⟩

theorem forInit_stores {kind : Counter} (h : m.AtTop f depth) (hop : forInit kind m = .ok () m') :
    ∃ step stop start r eval more, f.eval = step :: stop :: start :: .ref r :: eval ∧
      Operators.continues kind start stop step = .ok more ∧ StoredThrough r m m' := by
  obtain ⟨step, m₁, h₁, hrest⟩ := bind_ok_iff.1 hop
  obtain ⟨n₁, hrest, hw₁⟩ := holding_world hrest
  obtain ⟨stop, m₂, h₂, hrest⟩ := bind_ok_iff.1 hrest
  obtain ⟨n₂, hrest, hw₂⟩ := holding_world hrest
  obtain ⟨start, m₃, h₃, hrest⟩ := bind_ok_iff.1 hrest
  obtain ⟨n₃, hrest, hw₃⟩ := holding_world hrest
  obtain ⟨r, m₄, h₄, hrest⟩ := bind_ok_iff.1 hrest
  obtain ⟨n₄, hrest, hw₄⟩ := holding_world hrest
  obtain ⟨more, m₅, h₅, hrest⟩ := bind_ok_iff.1 hrest
  obtain ⟨_, m₆, h₆, h₇⟩ := bind_ok_iff.1 hrest
  obtain ⟨eval₁, he₁, ht₁⟩ := h.of_pop h₁
  obtain ⟨eval₂, he₂, ht₂⟩ := ht₁.of_pop h₂
  obtain ⟨eval₃, he₃, ht₃⟩ := ht₂.of_pop h₃
  obtain ⟨eval₄, he₄, -⟩ := eq_ref_of_popAs ht₃ h₄
  dsimp only at he₂ he₃ he₄
  have hmore : Operators.continues kind start stop step = .ok more := by
    cases hc : Operators.continues kind start stop step <;> rw [hc] at h₅ <;> cases h₅
    rfl
  have hworld : m₅.world = m.world := by
    rw [check_world h₅, popAs_world h₄, pop_world h₃, pop_world h₂, pop_world h₁]
  exact ⟨step, stop, start, r, eval₄, more, by rw [he₁, he₂, he₃, he₄], hmore, start, m₅, m₆, hworld, h₆,
    by rw [hw₁, hw₂, hw₃, hw₄, push_world h₇]⟩

theorem forStep_stores {kind : Counter} (h : m.AtTop f depth) (hop : forStep kind m = .ok () m') :
    ∃ step stop r eval, f.eval = step :: stop :: .ref r :: eval ∧ StoredThrough r m m' := by
  obtain ⟨step, m₁, h₁, hrest⟩ := bind_ok_iff.1 hop
  obtain ⟨n₁, hrest, hw₁⟩ := holding_world hrest
  obtain ⟨stop, m₂, h₂, hrest⟩ := bind_ok_iff.1 hrest
  obtain ⟨n₂, hrest, hw₂⟩ := holding_world hrest
  obtain ⟨r, m₃, h₃, hrest⟩ := bind_ok_iff.1 hrest
  obtain ⟨current, m₄, h₄, hrest⟩ := bind_ok_iff.1 hrest
  obtain ⟨next, m₅, h₅, hrest⟩ := bind_ok_iff.1 hrest
  obtain ⟨more, m₆, h₆, hrest⟩ := bind_ok_iff.1 hrest
  obtain ⟨_, m₇, h₇, h₈⟩ := bind_ok_iff.1 hrest
  obtain ⟨eval₁, he₁, ht₁⟩ := h.of_pop h₁
  obtain ⟨eval₂, he₂, ht₂⟩ := ht₁.of_pop h₂
  obtain ⟨eval₃, he₃, -⟩ := eq_ref_of_popAs ht₂ h₃
  dsimp only at he₂ he₃
  have hworld : m₆.world = m.world := by
    rw [check_world h₆, check_world h₅, load_world h₄, popAs_world h₃, pop_world h₂, pop_world h₁]
  exact ⟨step, stop, r, eval₃, by rw [he₁, he₂, he₃], next, m₆, m₇, hworld, h₇, by rw [hw₁, hw₂, push_world h₈]⟩

/-- **What an instruction that succeeds has stored through** is the reference that its operands say. -/
theorem exists_storedThrough {o : Op} {flow : Flow} (hs : o.storesThrough = true) (h : m.AtTop f depth)
    (ho : op o m = .ok flow m') : ∃ r, f.through? o = some r ∧ StoredThrough r m m' := by
  cases o <;> cases hs
  case store =>
    obtain ⟨r, v, eval, he, hst⟩ := store_stores h ho
    exact ⟨r, by simp only [Frame.through?, he], hst⟩
  case storeChar =>
    obtain ⟨n, r, c, eval, he, hst⟩ := storeChar_stores h (plain_ok ho)
    exact ⟨r, by simp only [Frame.through?, he], hst⟩
  case incrInt | incrReal =>
    obtain ⟨r, eval, he, hst⟩ := increment_stores h (plain_ok ho)
    exact ⟨r, by simp only [Frame.through?, he], hst⟩
  case forInit kind =>
    obtain ⟨step, stop, start, r, eval, more, he, hmore, hst⟩ := forInit_stores h (plain_ok ho)
    exact ⟨r, by simp only [Frame.through?, he, hmore], hst⟩
  case forStep kind =>
    obtain ⟨step, stop, r, eval, he, hst⟩ := forStep_stores h (plain_ok ho)
    exact ⟨r, by simp only [Frame.through?, he], hst⟩

/-- **An instruction that succeeds in going through a reference goes through the one that its operands say.** -/
theorem through?_of_ok {o : Op} {flow : Flow} (hg : o.goesThrough = true) (h : m.AtTop f depth)
    (ho : op o m = .ok flow m') : ∃ r, f.through? o = some r := by
  by_cases hs : o.storesThrough = true
  · obtain ⟨r, hr, -⟩ := exists_storedThrough hs h ho
    exact ⟨r, hr⟩
  -- Besides these there are two that load.
  cases o
  case deref =>
    obtain ⟨r, m₁, h₁, -⟩ := bind_ok_iff.1 (plain_ok ho)
    obtain ⟨eval, he, -⟩ := eq_ref_of_popAs h h₁
    exact ⟨r, by simp only [Frame.through?, he]⟩
  case paramPtr slot =>
    obtain ⟨_, _, h₁, -⟩ := bind_ok_iff.1 (plain_ok ho)
    obtain ⟨v, m₁, hparam, hrest⟩ := bind_ok_iff.1 h₁
    obtain ⟨r, _, href, -⟩ := bind_ok_iff.1 hrest
    obtain ⟨rest, hst, -⟩ := h
    rw [param_eq hst] at hparam
    split at hparam <;> cases hparam
    rename_i hp
    cases hv : v.asReference with
    | error e =>
      rw [hv] at href
      cases href
    | ok r' =>
      cases eq_ref_of_asReference hv
      exact ⟨r', by simp only [Frame.through?, hp]⟩
  all_goals first
    | exact absurd rfl hs
    | cases hg

end Exec

namespace Machine

variable {m₀ m : Machine} {r : Reference} {k : Nat}

/-- **An instruction that goes through a reference whose frame is not there fails, and changes no slot**: the frames and
the heap are as they were, short of the operands popped. -/
theorem step_dead {i : Instruction} {f : Frame} {rest : List Frame} (hi : m.current? = some i)
    (hst : m.stack = f :: rest) (hb : m.executed < m.limits.maxInstructions) (ho : f.through? i.op = some r)
    (hr : r.frame? = some k) (hd : m.depth ≤ k) :
    m.step.1 = some (.fault (.internal .deadFrame)) ∧ m.step.2.world.heap = m.world.heap ∧
      ∃ n, m.step.2.stack = f.popped n :: rest := by
  obtain ⟨hdone, hinstr⟩ := current?_eq_some_iff.1 hi
  have htop : m.counted.AtTop f m.depth := ⟨rest, hst, by rw [depth, hst, List.length_cons]⟩
  obtain ⟨m₁, hm₁⟩ := Exec.fails_op htop ho hr hd
  have hstep : m.step = (some (.fault (.internal .deadFrame)), m₁.settle) := by
    rw [step_eq, hdone, if_neg Bool.false_ne_true, if_neg (Nat.not_le_of_lt hb), hinstr]
    dsimp only
    rw [hm₁]
  obtain ⟨-, -, -, -, -, -, ⟨n, hstack⟩, hheap, -⟩ := failed_step hstep
  rw [hstep]
  exact ⟨rfl, hheap, n, by rw [hstack, hst]; rfl⟩

theorem depth_step (m : Machine) : m.step.2.depth ≤ m.depth ∨
    m.step.2.depth = m.depth + 1 ∧ ∃ i, m.current? = some i ∧ i.op.nargs?.isSome ∧ m.step.1 = none := by
  have hdepth : ∀ m : Machine, (m.stack.map Frame.reset).length = m.depth := fun m => List.length_map ..
  obtain ⟨n, h⟩ | ⟨i, f, hs, hi, hc, -, h⟩ := m.step_resets
  · have := congrArg List.length h
    rw [List.length_drop, hdepth, hdepth] at this
    exact .inl (by omega)
  · have := congrArg List.length h
    rw [List.length_cons, hdepth, hdepth] at this
    exact .inr ⟨this, i, hi, hc, hs⟩

/-- **A frame that stands where none stood before was made by a call in between.** -/
theorem exists_call_between (hk : 0 < k) {c : Nat} (hc : (m₀.stepped c).depth ≤ k) : ∀ {b : Nat}, c ≤ b →
    k < (m₀.stepped b).depth → ∃ c' i, c ≤ c' ∧ c' < b ∧ (m₀.stepped c').depth = k ∧
      (m₀.stepped c').current? = some i ∧ i.op.nargs?.isSome ∧ (m₀.stepped c').step.1 = none ∧
      ∀ j, c' < j → j ≤ b → k < (m₀.stepped j).depth
  | 0, hcb, hb => by
    cases Nat.le_zero.1 hcb
    exact absurd hb (Nat.not_lt_of_le hc)
  | b + 1, hcb, hb => by
    have hne : c ≠ b + 1 := by
      rintro rfl
      exact absurd hb (Nat.not_lt_of_le hc)
    have hcb' : c ≤ b := by omega
    by_cases hlast : k < (m₀.stepped b).depth
    · obtain ⟨c', i, h₁, h₂, h₃, h₄, h₅, h₆, h₇⟩ := exists_call_between hk hc hcb' hlast
      refine ⟨c', i, h₁, Nat.lt_succ_of_lt h₂, h₃, h₄, h₅, h₆, fun j hj hjb => ?_⟩
      rcases Nat.le_succ_iff.1 hjb with hle | rfl
      · exact h₇ j hj hle
      · exact hb
    · -- the step to `b + 1` is the one that set the frame there
      obtain h | ⟨h, i, hi, hcall, hs⟩ := depth_step (m₀.stepped b)
      · have : (m₀.stepped (b + 1)).depth ≤ (m₀.stepped b).depth := h
        omega
      · have : (m₀.stepped (b + 1)).depth = (m₀.stepped b).depth + 1 := h
        refine ⟨b, i, hcb', Nat.lt_succ_self b, by omega, hi, hcall, hs, fun j hj hjb => ?_⟩
        cases Nat.le_antisymm hjb hj
        exact hb

/-- **A step that makes a reference to a slot of its frame** leaves it among the operands, and changes nothing else of
the frames. -/
theorem step_frameRef {i : Instruction} (hi : m.current? = some i) (hs : m.step.1 = none)
    (hr : i.op.frameRef? (m.depth - 1) = some r) :
    ∃ f rest, m.stack = f :: rest ∧ m.step.2.stack = { f with eval := .ref r :: f.eval } :: rest := by
  obtain ⟨i', flow, m₁, hi', -, ho, hstep⟩ := step_ok (show m.step = (none, m.step.2) by rw [← hs])
  cases hi.symm.trans hi'
  cases hst : m.stack with
  | nil =>
    obtain ⟨hd, -⟩ := current?_eq_some_iff.1 hi
    rw [isDone, hst] at hd
    cases hd
  | cons f rest =>
    have hnumber : Exec.topNumber m.counted = .ok (m.depth - 1) m.counted :=
      Exec.topNumber_of_stack (m := m.counted) hst
    have hpush : Exec.push (.ref r) m.counted = .ok () m₁ := by
      cases hop : i.op <;> rw [hop] at hr ho <;> cases hr
      all_goals
        obtain ⟨n, m₂, h₁, h₂⟩ := Exec.bind_ok_iff.1 (Exec.plain_ok ho)
        rw [hnumber] at h₁
        cases h₁
        exact h₂
    refine ⟨f, rest, rfl, ?_⟩
    rw [hstep, settle_stack, flowTo_stack, Exec.stack_of_push (m := m.counted) hst hpush]

/-- No load and no store through a reference gets anywhere. -/
structure Dead (m : Machine) (r : Reference) : Prop where
  load : m.load r = .error (.fault (.internal .deadFrame))
  store : ∀ v, m.store r v = .error (.internal .deadFrame)
  /-- An instruction that goes through it fails, and changes no slot. -/
  fails : ∀ {i : Instruction} {f : Frame} {rest : List Frame}, m.current? = some i → m.stack = f :: rest →
    f.through? i.op = some r → m.executed < m.limits.maxInstructions →
    m.step.1 = some (.fault (.internal .deadFrame)) ∧ m.step.2.world.heap = m.world.heap ∧
      ∃ n, m.step.2.stack = f.popped n :: rest
  /-- One that succeeds goes through another one. -/
  succeeds : ∀ {i : Instruction} {f : Frame} {rest : List Frame}, m.current? = some i → m.stack = f :: rest →
    i.op.goesThrough = true → m.step.1 = none → ∃ r', f.through? i.op = some r' ∧ r' ≠ r

/-- A reference leads to its slot in one frame, and nowhere else. -/
structure LeadsInto (m : Machine) (r : Reference) (place : Nat) (g : Frame) : Prop where
  frame : m.frame? place = some g
  peek : m.peek r = g.look r
  store : ∀ {v : Value} {m' : Machine}, m.store r v = .ok m' → m'.world = m.world ∧ m'.depth = m.depth ∧
    m'.frame? place = some (g.put v r) ∧ ∀ n, n ≠ place → m'.frame? n = m.frame? n

theorem dead_of_depth_le (hr : r.frame? = some k) (hd : m.depth ≤ k) : m.Dead r := by
  refine ⟨load_dead hr hd, store_dead hr hd, fun hi hst ho hb => step_dead hi hst hb ho hr hd,
    fun {i f rest} hi hst hg hs => ?_⟩
  obtain ⟨i', flow, m₁, hi', -, ho, -⟩ := step_ok (show m.step = (none, m.step.2) by rw [← hs])
  cases hi.symm.trans hi'
  have htop : m.counted.AtTop f m.depth := ⟨rest, hst, by rw [depth, hst, List.length_cons]⟩
  obtain ⟨r', hr'⟩ := Exec.through?_of_ok hg htop ho
  refine ⟨r', hr', ?_⟩
  rintro rfl
  obtain ⟨m', hm'⟩ := Exec.fails_op htop hr' hr hd
  rw [hm'] at ho
  cases ho

theorem leadsInto_of_lt_depth (hr : r.frame? = some k) (hd : k < m.depth) : ∃ g, m.LeadsInto r k g := by
  obtain ⟨g, hg⟩ := isSome_frame? hd
  exact ⟨g, hg, peek_live hr hg, store_live hr hg⟩

theorem frame?_of_frameRef? {o : Op} (h : o.frameRef? k = some r) : r.frame? = some k := by
  cases o <;> cases h <;> rfl

/-- **References to frames that have returned.**  A step makes a reference to a local or a parameter of its frame, which
a call has made.  Once the frame has returned, the reference is dead whenever no frame stands at that place: whatever
goes through it fails, and reads and writes no slot.  Whenever a frame does stand there, a later call has made it, and
the reference leads to its slot in that frame and in no other. -/
theorem reference_after_return {m₀ : Machine} {a : Nat} {i : Instruction} (hi : (m₀.stepped a).current? = some i)
    (hs : (m₀.stepped a).step.1 = none) (hcall : 1 < (m₀.stepped a).depth)
    (hk : k + 1 = (m₀.stepped a).depth) (hr : i.op.frameRef? k = some r) :
    (∃ f rest, (m₀.stepped a).stack = f :: rest ∧
      (m₀.stepped (a + 1)).stack = { f with eval := .ref r :: f.eval } :: rest) ∧
    ∀ b c, a < c → c ≤ b → (m₀.stepped c).depth ≤ k →
      ((m₀.stepped b).depth ≤ k → (m₀.stepped b).Dead r) ∧
      (k < (m₀.stepped b).depth → ∃ c' call g, c ≤ c' ∧ c' < b ∧ (m₀.stepped c').depth = k ∧
        (m₀.stepped c').current? = some call ∧ call.op.nargs?.isSome ∧ (m₀.stepped c').step.1 = none ∧
        (∀ j, c' < j → j ≤ b → k < (m₀.stepped j).depth) ∧ (m₀.stepped b).LeadsInto r k g) := by
  have hframe := frame?_of_frameRef? hr
  refine ⟨step_frameRef hi hs (by rw [← hk]; exact hr), fun b c _ hcb hc => ⟨dead_of_depth_le hframe, fun hd => ?_⟩⟩
  obtain ⟨c', call, h₁, h₂, h₃, h₄, h₅, h₆, h₇⟩ := exists_call_between (by omega) hc hcb hd
  obtain ⟨g, hg⟩ := leadsInto_of_lt_depth hframe hd
  exact ⟨c', call, g, h₁, h₂, h₃, h₄, h₅, h₆, h₇, hg⟩

/-- A program that keeps a reference to a local of a function in a global.  It hands the reference to another function,
which assigns its own local, writes through the reference and returns its local; then it reads through it. -/
def leaking : Image where
  code := #[⟨⟨1, 1⟩, .call 0 1 0⟩, ⟨⟨1, 1⟩, .globalRef 0⟩, ⟨⟨1, 1⟩, .store⟩, ⟨⟨2, 1⟩, .globalVal 0⟩,
    ⟨⟨2, 1⟩, .call 1 2 1⟩, ⟨⟨3, 1⟩, .globalVal 0⟩, ⟨⟨3, 1⟩, .deref⟩, ⟨⟨3, 1⟩, .halt 2⟩, ⟨⟨5, 1⟩, .begin 1⟩,
    ⟨⟨5, 1⟩, .localRef 0⟩, ⟨⟨5, 1⟩, .ret 1⟩, ⟨⟨7, 1⟩, .begin 2⟩, ⟨⟨7, 1⟩, .litBool false⟩, ⟨⟨7, 1⟩, .localRef 0⟩,
    ⟨⟨7, 1⟩, .store⟩, ⟨⟨8, 1⟩, .litBool true⟩, ⟨⟨8, 1⟩, .paramVal 0⟩, ⟨⟨8, 1⟩, .store⟩, ⟨⟨9, 1⟩, .localVal 0⟩,
    ⟨⟨9, 1⟩, .ret 1⟩]
  labels := #[⟨"leak", 8⟩, ⟨"write", 11⟩]
  strings := #[]
  classes := #[]
  scopes := #[.global ["kept"], .callable "leak" [] ["x"], .callable "write" ["p"] ["y"]]
  globalScope := 0

/-- That program about to start, with nothing to read. -/
def leakingStart : Machine :=
  ⟨leaking, {}, 0, [.fresh 0 0 0 [] 1], 0, none, [], [], { console := ⟨.script [], [], ""⟩, random := .ofSeed 0 }⟩

/-- After both functions have returned, reading through the reference fails; inside the second one, the reference leads
into its frame. -/
theorem reference_after_return_leaking :
    (leakingStart.stepped 18).step.1 = some (.fault (.internal .deadFrame)) ∧
    (leakingStart.stepped 18).Dead (.local 1 0) ∧
    ∃ g, (leakingStart.stepped 14).LeadsInto (.local 1 0) 1 g ∧ g.scope = 2 := by
  have hi : (leakingStart.stepped 2).current? = some ⟨⟨5, 1⟩, .localRef 0⟩ := rfl
  obtain ⟨-, hafter⟩ := reference_after_return (k := 1) (r := .local 1 0) hi rfl (by decide) rfl rfl
  obtain ⟨hdead, -⟩ := hafter 18 4 (by decide) (by decide) (by decide)
  obtain ⟨-, hlive⟩ := hafter 14 4 (by decide) (by decide) (by decide)
  have hdead := hdead (by decide)
  obtain ⟨-, -, g, -, -, -, -, -, -, -, hg⟩ := hlive (by decide)
  have hderef : (leakingStart.stepped 18).current? = some ⟨⟨3, 1⟩, .deref⟩ := rfl
  refine ⟨(hdead.fails hderef rfl rfl (by decide)).1, hdead, g, hg, ?_⟩
  have hframe := hg.frame
  cases hframe
  rfl

/-- **A reference outlives its frame.**  The second function stands where the first one stood, and so its local is what
the reference to the local of the first one writes: the store succeeds, and the local has changed. -/
theorem reference_reused :
    leaking.isValid = true ∧ create? leaking {} leakingStart.world = some leakingStart ∧
    -- the reference is made in the first function, which then returns
    (leakingStart.stepped 2).current?.map (·.op) = some (.localRef 0) ∧ (leakingStart.stepped 2).depth = 2 ∧
    (leakingStart.stepped 3).stack.map Frame.eval = [[.ref (.local 1 0)], []] ∧ (leakingStart.stepped 4).depth = 1 ∧
    -- the second one stores through it
    (leakingStart.stepped 14).current?.map (·.op) = some .store ∧
    (leakingStart.stepped 14).stack.map Frame.eval = [[.ref (.local 1 0), .bool true], []] ∧
    (leakingStart.stepped 14).stack.map Frame.locals = [[some (.bool false)], [some (.ref (.local 1 0))]] ∧
    (leakingStart.stepped 14).step.1 = none ∧
    (leakingStart.stepped 15).stack.map Frame.locals = [[some (.bool true)], [some (.ref (.local 1 0))]] := by
  refine ⟨by decide, rfl, rfl, rfl, rfl, rfl, rfl, rfl, rfl, rfl, rfl⟩

end Machine

end PseudoVm
