import PseudoVm.Proofs.Machine.DeadReference
import PseudoVm.Proofs.Machine.Identities
/-!
# Machine.Allotment: what an instruction makes of its identities, and of new storage

An instruction as a whole may add storage (`Exec.Allots`), and then has to do with that as well.  With a graft in the
heap every instruction goes the same way, by other identities; and one that neither calls the library nor stores through
a reference leaves everything in the world as it was, short of storage that it adds (`Exec.allots_op`).
-/
namespace PseudoVm

variable {g : Graft} {R : Region} {writes : Bool}

/-! ## Operators -/

namespace Operators

variable {v : Value}

theorem plain_compared {op : BinaryOp} {order : Ordering} {type : String} (h : compared op order type = .ok v) :
    v.storage? = none := by
  unfold compared at h
  split at h <;> cases h
  rfl

theorem plain_ints {op : BinaryOp} {a b : Int64} (h : ints op a b = .ok v) : v.storage? = none := by
  cases op
  case div | mod =>
    simp only [ints] at h
    split at h <;> cases h
    rfl
  case add | sub | mul | exp =>
    cases h
    rfl
  all_goals
    simp only [ints] at h
    exact plain_compared h

theorem plain_reals {op : BinaryOp} {a b : Float} (h : reals op a b = .ok v) : v.storage? = none := by
  cases op <;> cases h <;> rfl

theorem plain_strings {op : BinaryOp} {a b : Bytes} (h : strings op a b = .ok v) : v.storage? = none := by
  unfold strings at h
  split at h
  · cases h
    rfl
  · exact plain_compared h

theorem plain_chars {op : BinaryOp} {a b : UInt8} (h : chars op a b = .ok v) : v.storage? = none := plain_compared h

theorem plain_bools {op : BinaryOp} {a b : Bool} (h : bools op a b = .ok v) : v.storage? = none := by
  cases op <;> cases h <;> rfl

theorem same_continues (kind : Counter) (val stop step : Value) : Same (continues kind val stop step)
    (continues kind (g.value val) (g.value stop) (g.value step)) := by
  cases kind with
  | int =>
    exact (val.same_asInt g).bind fun _ _ => (stop.same_asInt g).bind fun _ _ => (step.same_asInt g).bind fun _ _ =>
      .ok trivial
  | real =>
    exact (val.same_asReal g).bind fun _ _ => (stop.same_asReal g).bind fun _ _ => (step.same_asReal g).bind fun _ _ =>
      .ok trivial

theorem renamed_advance (kind : Counter) (current step : Value) : Renamed g.value (·.storage? = none)
    (advance kind current step) (advance kind (g.value current) (g.value step)) := by
  cases kind with
  | int => exact (current.same_asInt g).bind fun _ _ => (step.same_asInt g).bind fun _ _ => .ok rfl
  | real => exact (current.same_asReal g).bind fun _ _ => (step.same_asReal g).bind fun _ _ => .ok rfl

end Operators

namespace Exec

variable {α β : Type}

theorem blind_push_plain {v : Value} (hv : v.storage? = none) : BlindSame g R writes (push v) (push v) := by
  have h : BlindSame g R writes (push v) (push (g.value v)) := blind_push (Value.within_of_none hv)
  rwa [Library.value_of_plain g hv] at h

theorem blind_push_check {r : Except Fault Value} (hr : ∀ v, r = .ok v → v.storage? = none) :
    BlindSame g R writes (do push (← check r)) (do push (← check r)) := by
  cases h : r with
  | ok v =>
    show BlindSame g R writes (push v) (push v)
    exact blind_push_plain (hr v h)
  | error e => exact .fault_bind e

theorem blind_binary {as : Value → Except Fault α} {f : α → α → Except Fault Value}
    (has : ∀ v, Same (as v) (as (g.value v))) (hf : ∀ a b v, f a b = .ok v → v.storage? = none) :
    BlindSame g R writes (binary as f) (binary as f) :=
  (blind_popAs fun v _ => has v).bind fun b _ => (blind_popAs fun v _ => has v).bind fun a _ =>
    blind_push_check (hf a b)

theorem blind_binaryStr (op : BinaryOp) : BlindSame g R writes (binaryStr op) (binaryStr op) :=
  blind_pop.bind fun b hb => .holding (List.forall_mem_singleton.2 hb) <| blind_pop.bind fun a ha =>
    .holding (List.forall_mem_singleton.2 ha) <| (blind_check (a.same_asStr g)).bind fun _ _ =>
      (blind_check (b.same_asStr g)).bind fun _ _ => blind_push_check fun _ => Operators.plain_strings

theorem blind_unary {as : Value → Except Fault α} {f : α → Value} (has : ∀ v, Same (as v) (as (g.value v)))
    (hf : ∀ a, (f a).storage? = none) : BlindSame g R writes (unary as f) (unary as f) :=
  (blind_popAs fun v _ => has v).bind fun a _ => blind_push_plain (hf a)

/-! ## Stores -/

theorem blind_popRef : Blind g R writes g.reference (fun r => (Value.ref r).Within R) (popAs Value.asReference)
    (popAs Value.asReference) :=
  blind_popAs fun v hv => v.renamed_asReference g hv

theorem blind_store_plain {r : Reference} {v : Value} (hr : (Value.ref r).Within R) (hv : v.storage? = none) :
    BlindSame g R true (store r v) (store (g.reference r) v) := by
  have h : BlindSame g R true (store r v) (store (g.reference r) (g.value v)) :=
    blind_store hr (Value.within_of_none hv) nofun
  rwa [Library.value_of_plain g hv] at h

theorem blind_increment {as : Value → Except Fault α} {f : α → Value} (has : ∀ v, Same (as v) (as (g.value v)))
    (hf : ∀ a, (f a).storage? = none) : BlindSame g R true (increment as f) (increment as f) :=
  blind_popRef.bind fun _ hr => (blind_load hr).bind fun v _ => (blind_check (has v)).bind fun a _ =>
    blind_store_plain hr (hf a)

theorem blind_storeChar : BlindSame g R true storeChar storeChar :=
  (blind_popAs fun v _ => v.same_asInt g).bind fun _ _ => blind_popRef.bind fun _ hr =>
    .holding (List.forall_mem_singleton.2 hr) <| (blind_popAs fun v _ => v.same_asChar g).bind fun _ _ =>
      (blind_load hr).bind fun v _ => (blind_check (v.same_asStr g)).bind fun _ _ =>
        (blind_check (.same _)).bind fun _ _ => blind_store_plain hr rfl

theorem blind_forInit (kind : Counter) : BlindSame g R true (forInit kind) (forInit kind) :=
  blind_pop.bind fun step hstep => .holding (List.forall_mem_singleton.2 hstep) <| blind_pop.bind fun stop hstop =>
    .holding (List.forall_mem_singleton.2 hstop) <| blind_pop.bind fun start hstart =>
      .holding (List.forall_mem_singleton.2 hstart) <| blind_popRef.bind fun r hr =>
        .holding (List.forall_mem_singleton.2 hr) <|
          (blind_check (Operators.same_continues kind start stop step)).bind fun more _ =>
            (blind_store hr hstart fun h => by cases h).bind fun _ _ => blind_push_plain rfl

theorem blind_forStep (kind : Counter) : BlindSame g R true (forStep kind) (forStep kind) :=
  blind_pop.bind fun step hstep => .holding (List.forall_mem_singleton.2 hstep) <| blind_pop.bind fun stop hstop =>
    .holding (List.forall_mem_singleton.2 hstop) <| blind_popRef.bind fun r hr => (blind_load hr).bind fun v _ =>
      (blind_check (Operators.renamed_advance kind v step)).bind fun next hnext =>
        (blind_check (Operators.same_continues kind next stop step)).bind fun more _ =>
          (blind_store hr (Value.within_of_none hnext) fun h => by cases h).bind fun _ _ => blind_push_plain rfl

/-- **An instruction that stores through a reference** adds no storage. -/
theorem blind_storesThrough {o : Op} (ho : o.storesThrough = true) : BlindSame g R true (op o) (op o) := by
  cases o <;> cases ho
  case store =>
    exact .plain <| blind_popRef.bind fun r hr => .holding (List.forall_mem_singleton.2 hr) <|
      blind_pop.bind fun v hv => blind_store hr hv nofun
  case storeChar => exact .plain blind_storeChar
  case incrInt => exact .plain <| blind_increment (fun v => v.same_asInt g) fun _ => rfl
  case incrReal => exact .plain <| blind_increment (fun v => v.same_asReal g) fun _ => rfl
  case forInit kind => exact .plain (blind_forInit kind)
  case forStep kind => exact .plain (blind_forStep kind)

/-! ## Calls and returns -/

theorem ending_if {c : Prop} [Decidable c] {s : Stop} {m : Machine} {r : EStateM.Result Stop Machine α}
    {r' : EStateM.Result Stop Machine α} (h : r' = g.ending id r) :
    (if c then .error s (g.machine m) else r') = g.ending id (if c then .error s m else r) := by
  split
  · rfl
  · exact h

theorem blind_enter (target : Nat) (scope : ScopeId) {args : List Value} (ha : ∀ v ∈ args, v.Within R) :
    BlindSame g R writes (enter target scope args) (enter target scope (args.map g.value)) := by
  refine ⟨fun {m} hm => ?_, fun {m flow m₁} hm h => ?_, fun {m s m₁} hm h => ?_⟩
  · have hdepth : (g.machine m).depth = m.depth := List.length_map ..
    have hscope : (g.machine m).image.scopes[scope]? = m.image.scopes[scope]? := rfl
    rw [enter_eq, enter_eq, hdepth]
    refine ending_if ?_
    rw [hscope]
    cases m.image.scopes[scope]? with
    | none => rfl
    | some s =>
      have hfresh : Frame.fresh scope target m.pc (args.map g.value) s.locals.length =
          g.frame (Frame.fresh scope target m.pc args s.locals.length) := by
        simp [Graft.frame, Frame.fresh]
      exact congrArg (fun f => EStateM.Result.ok _ { g.machine m with stack := f :: m.stack.map g.frame }) hfresh
  · obtain ⟨-, s, -, -, rfl⟩ := enter_ok h
    have hlocals : ∀ n v, some v ∈ List.replicate n none → Value.Within R v := fun n v hv => by
      cases (List.mem_replicate.1 hv).2
    exact ⟨trivial, hm.within.setStack (List.forall_mem_cons.2
      ⟨⟨ha, ha, hlocals _, List.forall_mem_nil _⟩, hm.within.stack⟩), .refl _⟩
  · rw [(enter_error h).1]
    exact ⟨hm.within, .refl _⟩

theorem blind_leave (nval : Nat) : BlindSame g R writes (leave nval) (leave nval) := by
  refine ⟨fun {m} hm => ?_, fun {m flow m₁} hm h => ?_, fun {m s m₁} hm h => ?_⟩
  · have hstack : (g.machine m).stack = m.stack.map g.frame := rfl
    have hlength : ∀ f : Frame, (g.frame f).eval.length = f.eval.length := fun f => List.length_map ..
    rw [leave_eq, leave_eq, hstack]
    cases m.stack with
    | nil => rfl
    | cons f rest =>
      simp only [List.map_cons, hlength]
      refine ending_if ?_
      cases rest with
      | nil =>
        simp only [List.map_nil, g.frame_values]
        exact congrArg (EStateM.Result.ok _) (g.letGo_machine { m with stack := [] } f.values)
      | cons caller rest =>
        have heval : (g.frame f).eval ++ (g.frame caller).eval = (f.eval ++ caller.eval).map g.value :=
          List.map_append.symm
        simp only [List.map_cons, g.frame_cellValues, heval]
        exact congrArg (EStateM.Result.ok _) (g.letGo_machine
          { m with stack := { caller with eval := f.eval ++ caller.eval } :: rest } f.cellValues)
  · obtain ⟨f, rest, hst, -, hleft⟩ := leave_ok h
    have hframes := hm.within.stack
    rw [hst] at hframes
    obtain ⟨hf, hrest⟩ := List.forall_mem_cons.1 hframes
    have hvalues := Frame.within_iff.1 hf
    obtain ⟨-, -, rfl⟩ | ⟨caller, below, rfl, -, rfl⟩ := hleft
    · refine ⟨trivial, (hm.within.setStack (List.forall_mem_nil _)).letGo hvalues, ?_⟩
      rw [Machine.letGo_world]
      exact .refl _
    · obtain ⟨hcaller, hrest⟩ := List.forall_mem_cons.1 hrest
      have hback : ({ caller with eval := f.eval ++ caller.eval } : Frame).Within R :=
        { hcaller with eval := List.forall_mem_append.2 ⟨hf.eval, hcaller.eval⟩ }
      refine ⟨trivial, (hm.within.setStack (List.forall_mem_cons.2 ⟨hback, hrest⟩)).letGo fun v hv =>
        hvalues v (List.mem_append_left _ hv), ?_⟩
      rw [Machine.letGo_world]
      exact .refl _
  · rw [(leave_error h).1]
    exact ⟨hm.within, .refl _⟩

theorem blind_stop (nval : Nat) : BlindSame g R writes (stop nval) (stop nval) := by
  refine ⟨fun {m} hm => ?_, fun {m flow m₁} hm h => ?_, fun {m s m₁} hm h => ?_⟩
  · have hstack : (g.machine m).stack = m.stack.map g.frame := rfl
    have hresult : (g.machine m).result.toList = m.result.toList.map g.value := by
      unfold Graft.machine
      cases m.result <;> rfl
    have hlength : ∀ f : Frame, (g.frame f).eval.length = f.eval.length := fun f => List.length_map ..
    have hvalues : (m.stack.map g.frame).reverse.flatMap Frame.values =
        (m.stack.reverse.flatMap Frame.values).map g.value := by
      rw [← List.map_reverse, g.flatMap_values]
    rw [stop_eq, stop_eq, hstack, hresult, hvalues, ← List.map_append]
    generalize hgone : m.result.toList ++ m.stack.reverse.flatMap Frame.values = gone
    cases m.stack with
    | nil => rfl
    | cons f rest =>
      have hhead : (g.frame f).eval.head? = f.eval.head?.map g.value := List.head?_map
      simp only [List.map_cons, hlength, hhead]
      exact ending_if (congrArg (EStateM.Result.ok _)
        (g.letGo_machine { m with result := f.eval.head?, stack := [] } gone))
  · obtain ⟨f, rest, hst, -, -, rfl⟩ := stop_ok h
    have hf : f.Within R := hm.within.stack f (by rw [hst]; exact List.mem_cons_self)
    have hleft : ({ m with result := f.eval.head?, stack := [] } : Machine).Within R :=
      ⟨List.forall_mem_nil _, fun v hv => hf.eval v (List.mem_of_head? hv), hm.within.suspended, hm.within.loose,
        hm.within.closed⟩
    refine ⟨trivial, hleft.letGo fun v hv => ?_, ?_⟩
    · rcases List.mem_append.1 hv with hv | hv
      · exact hm.within.result v (Option.mem_toList.1 hv)
      · obtain ⟨f, hf, hv⟩ := List.mem_flatMap.1 hv
        exact Frame.within_iff.1 (hm.within.stack f (List.mem_reverse.1 hf)) v hv
    · rw [Machine.letGo_world]
      exact .refl _
  · rw [(stop_error h).1]
    exact ⟨hm.within, .refl _⟩

end Exec

/-! ## New storage -/

namespace World

/-- A region with the storage that one world has beyond another. -/
def Grown (R : Region) (w w₁ : World) : Region := fun s => R s ∨ w.Adds w₁ s

/-- **From one world to another storage was only added**; everything else is as it was, if nothing `writes`. -/
structure Enlarged (R : Region) (writes : Bool) (w w₁ : World) : Prop where
  arrays : w.heap.arrays.size ≤ w₁.heap.arrays.size
  objects : w.heap.objects.size ≤ w₁.heap.objects.size
  files : w.files.size ≤ w₁.files.size
  same : writes = false → w₁ = { w with heap := w₁.heap } ∧ Heap.Grows R w.heap w₁.heap

variable {w w₁ w₂ : World}

theorem Overwritten.grown_after (h : Overwritten writes w₁ w₂) (w : World) : Grown R w w₂ = Grown R w w₁ := by
  have hfiles : w₂.files.size = w₁.files.size := by rw [h.rest]
  funext s
  cases s with
  | array id => simp only [Grown, Adds, Heap.Adds, h.arrays]
  | object id => simp only [Grown, Adds, Heap.Adds, h.objects]
  | file id => simp only [Grown, Adds, hfiles]

theorem Overwritten.grown_before (h : Overwritten writes w w₁) (w₂ : World) : Grown R w₁ w₂ = Grown R w w₂ := by
  have hfiles : w₁.files.size = w.files.size := by rw [h.rest]
  funext s
  cases s with
  | array id => simp only [Grown, Adds, Heap.Adds, h.arrays]
  | object id => simp only [Grown, Adds, Heap.Adds, h.objects]
  | file id => simp only [Grown, Adds, hfiles]

theorem grown_self (w : World) : Grown R w w = R := by
  have hnone : ∀ s, ¬ w.Adds w s := fun s => by
    cases s <;> exact fun h => absurd (Nat.lt_of_le_of_lt h.1 h.2) (Nat.lt_irrefl _)
  funext s
  exact propext ⟨fun hs => hs.resolve_right (hnone s), .inl⟩

theorem Overwritten.grown_eq (h : Overwritten writes w w₁) : Grown R w w₁ = R := by
  rw [h.grown_after, grown_self]

theorem Overwritten.enlarged (h : Overwritten writes w w₁) : Enlarged R writes w w₁ := by
  refine ⟨Nat.le_of_eq h.arrays.symm, Nat.le_of_eq h.objects.symm, Nat.le_of_eq (by rw [h.rest]), fun hw => ?_⟩
  rw [h.same hw]
  exact ⟨rfl, .refl⟩

theorem Enlarged.overwritten (h : Enlarged R writes w w₁) (h' : Overwritten writes w₁ w₂) : Enlarged R writes w w₂ := by
  have hfiles : w₂.files.size = w₁.files.size := by rw [h'.rest]
  refine ⟨by rw [h'.arrays]; exact h.arrays, by rw [h'.objects]; exact h.objects, by rw [hfiles]; exact h.files,
    fun hw => ?_⟩
  rw [h'.same hw]
  exact h.same hw

theorem Overwritten.enlarges (h : Overwritten writes w w₁) (h' : Enlarged R writes w₁ w₂) : Enlarged R writes w w₂ := by
  have hfiles : w₁.files.size = w.files.size := by rw [h.rest]
  refine ⟨by rw [← h.arrays]; exact h'.arrays, by rw [← h.objects]; exact h'.objects, by rw [← hfiles]; exact h'.files,
    fun hw => ?_⟩
  rw [← h.same hw]
  exact h'.same hw

theorem closed_grown (hg : Heap.Grows R w.heap w₁.heap) (hc : w.heap.Closed R) : w₁.heap.Closed (Grown R w w₁) := by
  have hheap : ∀ s, Heap.Grown R w.heap w₁.heap s → Grown R w w₁ s := by
    rintro s (hR | hnew)
    · exact .inl hR
    · cases s with
      | file id => exact hnew.elim
      | _ => exact .inr hnew
  rintro c (hR | hnew) v hv
  · exact (hg.closed hc c (.inl hR) v hv).mono hheap
  · cases c with
    | array id => exact (hg.closed hc (.array id) (.inr hnew) v hv).mono hheap
    | object id => exact (hg.closed hc (.object id) (.inr hnew) v hv).mono hheap
    | file id => cases hv

end World

namespace Machine

theorem Within.grown {m : Machine} (hm : m.Within R) {w : World} (hg : Heap.Grows R m.world.heap w.heap) :
    ({ m with world := w } : Machine).Within (World.Grown R m.world w) :=
  hm.setWorld (fun _ => .inl) (World.closed_grown hg hm.closed)

theorem Within.stays {m : Machine} (hm : m.Within R) {w : World} (hw : m.world = w) :
    m.Within (World.Grown R w m.world) ∧ w.Enlarged R writes m.world := by
  rw [hw, World.grown_self]
  exact ⟨hm, (World.Overwritten.refl w).enlarged⟩

end Machine

namespace Exec

variable {α β γ δ : Type} {ρ : α → β} {σ : γ → δ} {Q : Region → α → Prop} {P : Region → γ → Prop}

/-- **With a graft one does what the other does without**, by other names; and where it starts within a region, it ends
within what the region is with the storage that was added.  It comes to what has to do with that region. -/
structure Allots (g : Graft) (R : Region) (writes : Bool) (ρ : α → β) (Q : Region → α → Prop) (x : Exec α)
    (y : Exec β) : Prop where
  graft : ∀ {m}, m.Hosts g R → y (g.machine m) = g.ending ρ (x m)
  ok : ∀ {m a m₁}, m.Hosts g R → x m = .ok a m₁ → Q (World.Grown R m.world m₁.world) a ∧
    m₁.Within (World.Grown R m.world m₁.world) ∧ m.world.Enlarged R writes m₁.world
  error : ∀ {m s m₁}, m.Hosts g R → x m = .error s m₁ →
    m₁.Within (World.Grown R m.world m₁.world) ∧ m.world.Enlarged R writes m₁.world

/-- One that comes to something without storage. -/
abbrev AllotsSame (g : Graft) (R : Region) (writes : Bool) (x y : Exec α) : Prop :=
  Allots g R writes id (fun _ _ => True) x y

theorem Blind.allots {x : Exec α} {y : Exec β} (h : Blind g R writes ρ (Q R) x y) : Allots g R writes ρ Q x y := by
  refine ⟨h.graft, fun {m a m₁} hm hx => ?_, fun {m s m₁} hm hx => ?_⟩
  · obtain ⟨ha, hm₁, hw⟩ := h.ok hm hx
    rw [hw.grown_eq]
    exact ⟨ha, hm₁, hw.enlarged⟩
  · obtain ⟨hm₁, hw⟩ := h.error hm hx
    rw [hw.grown_eq]
    exact ⟨hm₁, hw.enlarged⟩

theorem Blind.bind_allots {Q : α → Prop} {x : Exec α} {y : Exec β} {k : α → Exec γ} {l : β → Exec δ}
    (hx : Blind g R writes ρ Q x y) (hk : ∀ a, Q a → Allots g R writes σ P (k a) (l (ρ a))) :
    Allots g R writes σ P (x >>= k) (y >>= l) := by
  refine ⟨fun {m} hm => ?_, fun {m b m₂} hm h => ?_, fun {m s m₂} hm h => ?_⟩
  · refine ending_bind (hx.graft hm) fun {a m₁} h1 => ?_
    obtain ⟨ha, hm₁, hw⟩ := hx.ok hm h1
    exact (hk a ha).graft ⟨hm₁, hw.fits hm.fits⟩
  · obtain ⟨a, m₁, h1, h2⟩ := bind_ok_iff.1 h
    obtain ⟨ha, hm₁, hw⟩ := hx.ok hm h1
    obtain ⟨hb, hm₂, hw'⟩ := (hk a ha).ok ⟨hm₁, hw.fits hm.fits⟩ h2
    rw [hw.grown_before] at hb hm₂
    exact ⟨hb, hm₂, hw.enlarges hw'⟩
  · obtain h1 | ⟨a, m₁, h1, h2⟩ := bind_error_iff.1 h
    · obtain ⟨hm₁, hw⟩ := hx.error hm h1
      rw [hw.grown_eq]
      exact ⟨hm₁, hw.enlarged⟩
    · obtain ⟨ha, hm₁, hw⟩ := hx.ok hm h1
      obtain ⟨hm₂, hw'⟩ := (hk a ha).error ⟨hm₁, hw.fits hm.fits⟩ h2
      rw [hw.grown_before] at hm₂
      exact ⟨hm₂, hw.enlarges hw'⟩

namespace Allots

theorem fits {m m₁ : Machine} (hm : m.Hosts g R) (h : m.world.Enlarged R writes m₁.world) : g.Fits m₁.world.heap :=
  ⟨Nat.le_trans hm.fits.arrays h.arrays, Nat.le_trans hm.fits.objects h.objects⟩

theorem bind {x : Exec α} {y : Exec β} {k : α → Exec γ} {l : β → Exec δ} (hx : Allots g R writes ρ Q x y)
    (hk : ∀ R' a, Q R' a → Blind g R' writes σ (P R') (k a) (l (ρ a))) :
    Allots g R writes σ P (x >>= k) (y >>= l) := by
  refine ⟨fun {m} hm => ?_, fun {m b m₂} hm h => ?_, fun {m s m₂} hm h => ?_⟩
  · refine ending_bind (hx.graft hm) fun {a m₁} h1 => ?_
    obtain ⟨ha, hm₁, hw⟩ := hx.ok hm h1
    exact (hk _ a ha).graft ⟨hm₁, fits hm hw⟩
  · obtain ⟨a, m₁, h1, h2⟩ := bind_ok_iff.1 h
    obtain ⟨ha, hm₁, hw⟩ := hx.ok hm h1
    obtain ⟨hb, hm₂, hw'⟩ := (hk _ a ha).ok ⟨hm₁, fits hm hw⟩ h2
    rw [hw'.grown_after]
    exact ⟨hb, hm₂, hw.overwritten hw'⟩
  · obtain h1 | ⟨a, m₁, h1, h2⟩ := bind_error_iff.1 h
    · exact hx.error hm h1
    · obtain ⟨ha, hm₁, hw⟩ := hx.ok hm h1
      obtain ⟨hm₂, hw'⟩ := (hk _ a ha).error ⟨hm₁, fits hm hw⟩ h2
      rw [hw'.grown_after]
      exact ⟨hm₂, hw.overwritten hw'⟩

theorem plain {x y : Exec Unit} (hx : AllotsSame g R writes x y) : AllotsSame g R writes (plain x) (plain y) :=
  hx.bind fun _ _ _ => .pure rfl trivial

theorem holding {vs : List Value} {x : Exec α} {y : Exec β} (hv : ∀ v ∈ vs, v.Within R)
    (hx : Allots g R writes ρ Q x y) : Allots g R writes ρ Q (holding vs x) (holding (vs.map g.value) y) := by
  have hgrown : ∀ w w₁ : World, ∀ v ∈ vs, v.Within (World.Grown R w w₁) := fun _ _ v h => (hv v h).mono fun _ => .inl
  refine ⟨fun {m} hm => ?_, fun {m a m₂} hm h => ?_, fun {m s m₂} hm h => ?_⟩
  · exact ending_holding (hx.graft hm) vs
  · obtain ⟨m₁, h1, rfl⟩ := holding_ok_iff.1 h
    obtain ⟨ha, hm₁, hw⟩ := hx.ok hm h1
    rw [Machine.letGo_world]
    exact ⟨ha, hm₁.letGo (hgrown _ _), hw⟩
  · obtain ⟨m₁, h1, rfl⟩ := holding_error_iff.1 h
    obtain ⟨hm₁, hw⟩ := hx.error hm h1
    rw [Machine.letGo_world]
    exact ⟨hm₁.letGo (hgrown _ _), hw⟩

theorem of_eq {x x' : Exec α} {y y' : Exec β} (h : Allots g R writes ρ Q x' y') (hx : ∀ m, x m = x' m)
    (hy : ∀ m, y m = y' m) : Allots g R writes ρ Q x y := by
  cases funext hx
  cases funext hy
  exact h

end Allots

/-- Puts new storage into the heap, if there can be such. -/
def allot (make : Heap → Option (Value × Heap)) : Exec Value := do
  match make (← heap) with
  | none => throw (.abort .deadlock)
  | some (v, heap) =>
    modify (·.setHeap heap)
    return v

theorem allot_eq (make : Heap → Option (Value × Heap)) (m : Machine) :
    allot make m = match make m.world.heap with
      | none => .error (.abort .deadlock) m
      | some (v, heap) => .ok v (m.setHeap heap) := by
  simp only [allot, heap, bind, EStateM.bind, get_eq, pure, EStateM.pure]
  cases make m.world.heap <;> rfl

theorem allots_allot {make make' : Heap → Option (Value × Heap)}
    (hgraft : ∀ h, g.Fits h → make' (g.heap h) = (make h).map g.copied)
    (hgrows : ∀ h v h₁, h.Closed R → make h = some (v, h₁) → Heap.Grows R h h₁ ∧ v.Within (Heap.Grown R h h₁)) :
    Allots g R writes g.value Value.Within (allot make) (allot make') := by
  refine ⟨fun {m} hm => ?_, fun {m v m₁} hm h => ?_, fun {m s m₁} hm h => ?_⟩
  · have hmake : make' (g.machine m).world.heap = (make m.world.heap).map g.copied := hgraft _ hm.fits
    rw [allot_eq, allot_eq, hmake]
    cases make m.world.heap <;> rfl
  · rw [allot_eq] at h
    split at h <;> cases h
    rename_i h₁ heq
    obtain ⟨hg, hv⟩ := hgrows _ v h₁ hm.within.closed heq
    refine ⟨fun s hs => ?_, hm.within.grown hg, hg.size_le.1, hg.size_le.2, Nat.le_refl _, fun _ => ⟨rfl, hg⟩⟩
    obtain hR | hnew := hv s hs
    · exact .inl hR
    · cases s with
      | array id => exact .inr hnew
      | object id => exact .inr hnew
      | file id => exact hnew.elim
  · rw [allot_eq] at h
    split at h <;> cases h
    rw [World.grown_self]
    exact ⟨hm.within, (World.Overwritten.refl _).enlarged⟩

theorem allots_act {a a' : Library.Act (Option Value)} (h : Library.Blind g a a') :
    Allots g R true (Option.map g.value) (fun R' o => ∀ v, o = some v → v.Within R') (act a) (act a') := by
  have hspares : ∀ {m : Machine} {w : World}, m.Hosts g R → Library.Spares m.world w →
      ({ m with world := w } : Machine).Within (World.Grown R m.world w) ∧ m.world.Enlarged R true w := by
    intro m w hm hw
    refine ⟨hm.within.grown ?_, Nat.le_of_eq (by rw [hw.heap]), Nat.le_of_eq (by rw [hw.heap]), hw.files,
      fun he => by cases he⟩
    rw [hw.heap]
    exact .refl
  refine ⟨fun {m} hm => ?_, fun {m o m₁} hm ha => ?_, fun {m s m₁} hm ha => ?_⟩
  · have hact : a' (g.machine m).world = g.answer (a m.world) := h.graft _ hm.fits
    rw [act_eq, act_eq, hact]
    cases a m.world <;> rfl
  · rw [act_eq] at ha
    split at ha <;> cases ha
    rename_i w hw
    obtain ⟨hs, hnew⟩ := h.ok hw
    obtain ⟨hm₁, he⟩ := hspares hm hs
    exact ⟨fun v hv => (hnew v hv).mono fun _ => .inr, hm₁, he⟩
  · rw [act_eq] at ha
    split at ha <;> cases ha
    rename_i w hw
    exact hspares hm (h.error hw)

/-! ## Instructions -/

/-- The storage that an array literal makes. -/
def makeArray (items : List Value) (h : Heap) : Option (Value × Heap) :=
  some (.array (h.newArray items.toArray).1, (h.newArray items.toArray).2)

/-- The storage that an object with no fields assigned makes. -/
def makeObject (cls : ClassId) (nfields : Nat) (h : Heap) : Option (Value × Heap) :=
  some (.object cls (h.newObject (Array.replicate nfields none)).1, (h.newObject (Array.replicate nfields none)).2)

theorem allots_pushArray {items : List Value} (hi : ∀ v ∈ items, v.Within R) :
    AllotsSame g R writes (pushArray items) (pushArray (items.map g.value)) := by
  have hpush : ∀ items, pushArray items = allot (makeArray items) >>= push := fun items => rfl
  rw [hpush, hpush]
  refine (allots_allot (fun h hf => ?_) fun h v h₁ hc he => ?_).bind fun R' v hv => blind_push hv
  · have hnew := g.newArray_heap hf items.toArray
    rw [List.map_toArray] at hnew
    simp only [makeArray, hnew]
    rfl
  · cases he
    refine ⟨.array items .refl fun v hv => (hi v hv).mono fun _ => .inl, fun s hs => ?_⟩
    cases hs
    exact .inr ⟨Nat.le_refl _, by simp [Heap.newArray]⟩

theorem allots_newObject (cls : ClassId) (nfields : Nat) :
    AllotsSame g R writes (newObject cls nfields) (newObject cls nfields) := by
  have hpush : AllotsSame g R writes (allot (makeObject cls nfields) >>= push)
      (allot (makeObject cls nfields) >>= push) := by
    refine (allots_allot (fun h hf => ?_) fun h v h₁ hc he => ?_).bind fun R' v hv => blind_push hv
    · have hnew := g.newObject_heap hf (Array.replicate nfields none)
      rw [Array.map_replicate, Option.map_none] at hnew
      simp only [makeObject, hnew]
      rfl
    · cases he
      refine ⟨.object nfields .refl, fun s hs => ?_⟩
      cases hs
      exact .inr ⟨Nat.le_refl _, by simp [Heap.newObject]⟩
  unfold newObject
  split
  · exact Blind.allots (.throw _)
  · exact hpush

theorem allots_copyArray (dims : Nat) : AllotsSame g R writes (copyArray dims) (copyArray dims) := by
  refine blind_pop.bind_allots fun v hv => .holding (List.forall_mem_singleton.2 hv) <|
    (blind_check (v.renamed_asArray g hv)).bind_allots fun _ _ => ?_
  have hpush : AllotsSame g R writes (allot (fun h => h.copy? dims v) >>= push)
      (allot (fun h => h.copy? dims (g.value v)) >>= push) := by
    refine (allots_allot (fun h hf => Graft.copyFrom_heap dims [] hf) fun h c h₁ hc he => ?_).bind fun R' c hc =>
      blind_push hc
    obtain ⟨hg, -, hcopy⟩ := Heap.copyFrom_grows hc dims [] .refl (hv.mono fun _ => .inl) he
    exact ⟨hg, hcopy⟩
  refine hpush.of_eq (fun m => ?_) fun m => ?_
  all_goals
    simp only [heap, bind, EStateM.bind, get_eq, pure, EStateM.pure, allot_eq]
    generalize m.world.heap.copy? dims _ = r
    cases r <;> rfl

theorem allots_callLibrary (index nargs : Nat) :
    AllotsSame g R true (callLibrary index nargs) (callLibrary index nargs) := by
  refine (blind_popMany nargs).bind_allots fun args ha => .holding ha ?_
  cases LibraryFunction.ofIndex? index with
  | none => exact Blind.allots (.fault _)
  | some f =>
    refine (allots_act (Library.blind_call g f args)).bind fun R' o ho => ?_
    cases o with
    | none => exact .pure rfl trivial
    | some v => exact (blind_push (ho v rfl)).bind fun _ _ => .pure rfl trivial

theorem blind_call (label : LabelId) (scope : ScopeId) (nargs : Nat) :
    BlindSame g R writes (op (.call label scope nargs)) (op (.call label scope nargs)) :=
  (blind_popMany nargs).bind fun _ ha => .holding ha <| .look fun _ _ => (blind_require _).bind fun target _ =>
    blind_enter target scope ha

theorem blind_vcall (cls : ClassId) (slot nargs : Nat) :
    BlindSame g R writes (op (.vcall cls slot nargs)) (op (.vcall cls slot nargs)) := by
  refine (blind_popMany nargs).bind fun args ha => .holding ha ?_
  cases args with
  | nil => exact .fault _
  | cons receiver args =>
    exact (blind_method (List.forall_mem_cons.1 ha).1 slot).bind fun found _ => .look fun _ _ =>
      (blind_require _).bind fun target _ => blind_enter target found.scope ha

/-- **No instruction looks at identities.**  Whatever storage goes by, it comes to the same; and one that neither calls
the library nor stores through a reference only adds storage to the world. -/
theorem allots_op (o : Op) (h : writes = false → o.isLibCall = false ∧ o.storesThrough = false) :
    AllotsSame g R writes (op o) (op o) := by
  by_cases hs : o.storesThrough = true
  · cases writes with
    | false =>
      rw [(h rfl).2] at hs
      cases hs
    | true => exact (blind_storesThrough hs).allots
  cases o
  case store | storeChar | incrInt | incrReal | forInit | forStep => exact absurd rfl hs
  case libCall index nargs =>
    cases writes with
    | false => cases (h rfl).1
    | true => exact allots_callLibrary index nargs
  case arrayNew size => exact .plain <| (blind_popMany size).bind_allots fun items hi => allots_pushArray hi
  case arrayClone dims => exact .plain (allots_copyArray dims)
  case objNew cls nfields => exact .plain (allots_newObject cls nfields)
  all_goals refine Blind.allots ?_
  case begin => exact .pure rfl trivial
  case jump label => exact blind_jump label
  case jumpTrue label =>
    refine (blind_popAs fun v _ => v.same_asBool g).bind fun b _ => ?_
    cases b
    · exact .pure rfl trivial
    · exact blind_jump label
  case jumpFalse label =>
    refine (blind_popAs fun v _ => v.same_asBool g).bind fun b _ => ?_
    cases b
    · exact blind_jump label
    · exact .pure rfl trivial
  case finish => exact blind_leave 0
  case ret nval => exact blind_leave nval
  case call label scope nargs => exact blind_call label scope nargs
  case vcall cls slot nargs => exact blind_vcall cls slot nargs
  case halt nval => exact blind_stop nval
  case unInt u =>
    cases u <;> first | exact .plain (blind_unary (fun v => v.same_asInt g) fun _ => rfl) | exact .plain (.fault _)
  case unReal u =>
    cases u <;> first | exact .plain (blind_unary (fun v => v.same_asReal g) fun _ => rfl) | exact .plain (.fault _)
  case unBool u =>
    cases u <;> first | exact .plain (blind_unary (fun v => v.same_asBool g) fun _ => rfl) | exact .plain (.fault _)
  all_goals refine .plain ?_
  case litInt | litReal | litBool | litChar | globalRef => exact blind_push_plain rfl
  case litStr id =>
    refine .look fun m _ => ?_
    dsimp only [Graft.machine]
    cases m.image.strings[id]? with
    | none => exact .fault _
    | some s => exact blind_push_plain rfl
  case globalVal slot => exact (blind_load (Value.within_of_none rfl)).bind fun _ hv => blind_push hv
  case localRef slot => exact blind_topNumber.bind fun n _ => blind_push_plain rfl
  case localVal slot =>
    exact blind_topNumber.bind fun n _ => (blind_load (r := .local n slot) (Value.within_of_none rfl)).bind fun _ hv =>
      blind_push hv
  case paramRef slot => exact blind_topNumber.bind fun n _ => blind_push_plain rfl
  case paramVal slot => exact (blind_param slot).bind fun _ hv => blind_push hv
  case paramPtr slot => exact (blind_pointee slot).bind fun _ hv => blind_push hv
  case fieldRef index =>
    refine (blind_popAs fun v hv => v.renamed_asObject g hv).bind fun p hp =>
      blind_push (v := .ref (.field p.2 index)) fun s hs => ?_
    cases hs
    exact hp
  case fieldVal index =>
    exact (blind_popAs fun v hv => v.renamed_asObject g hv).bind fun p hp => (blind_field hp).bind fun _ hv =>
      blind_push hv
  case deref => exact blind_popRef.bind fun _ hr => (blind_load hr).bind fun _ hv => blind_push hv
  case binInt b => exact blind_binary (fun v => v.same_asInt g) fun _ _ _ => Operators.plain_ints
  case binReal b => exact blind_binary (fun v => v.same_toReal g) fun _ _ _ => Operators.plain_reals
  case binStr b => exact blind_binaryStr b
  case binChar b => exact blind_binary (fun v => v.same_asChar g) fun _ _ _ => Operators.plain_chars
  case binBool b => exact blind_binary (fun v => v.same_asBool g) fun _ _ _ => Operators.plain_bools
  case intToReal => exact blind_unary (fun v => v.same_asInt g) fun _ => rfl
  case realToInt => exact blind_unary (fun v => v.same_asReal g) fun _ => rfl
  case offsetRef kind =>
    exact (blind_popAs fun v _ => v.same_asInt g).bind fun index _ => blind_pop.bind fun container hc =>
      .holding (List.forall_mem_singleton.2 hc) <| (blind_elementRef hc).bind fun r hr => blind_push hr
  case offsetVal kind =>
    exact (blind_popAs fun v _ => v.same_asInt g).bind fun index _ => blind_pop.bind fun container hc =>
      .holding (List.forall_mem_singleton.2 hc) <| (blind_elementVal hc).bind fun r hr => blind_push hr
  case arrayLen =>
    refine (blind_popAs fun v hv => v.renamed_asArray g hv).bind fun id _ => blind_heap.bind fun h hh => ?_
    rw [g.items_heap hh.2, Array.size_map]
    exact blind_push_plain rfl
  case dup => exact blind_pop.bind fun v hv => (blind_push hv).bind fun _ _ => blind_push hv
  case pop => exact blind_pop.bind fun v hv => blind_letGo (List.forall_mem_singleton.2 hv)

end Exec

end PseudoVm
