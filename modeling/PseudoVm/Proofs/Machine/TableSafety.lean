import PseudoVm.Proofs.Image.ListingDefined
import PseudoVm.Proofs.Machine.StackShape
import PseudoVm.Session.Inspect
/-!
# Machine.TableSafety: a valid program never misses an entry of a table

Instructions, traces, views of frames and messages look things up in the tables of the image by number.  In a valid
image, and whatever a program and its debugger have done so far, none of these look-ups misses
(`Machine.table_safety`).
-/
namespace PseudoVm

theorem exists_of_mapM_error {α β ε : Type} {f : α → Except ε β} {e : ε} :
    ∀ {l : List α}, l.mapM f = .error e → ∃ a ∈ l, f a = .error e
  | [], h => by cases h
  | a :: l, h => by
    rw [List.mapM_cons] at h
    cases hf : f a with
    | error e' =>
      rw [hf] at h
      cases h
      exact ⟨a, List.mem_cons_self, hf⟩
    | ok b =>
      rw [hf] at h
      cases hl : l.mapM f with
      | error e' =>
        rw [hl] at h
        cases h
        obtain ⟨a', ha', hf'⟩ := exists_of_mapM_error hl
        exact ⟨a', List.mem_cons_of_mem a ha', hf'⟩
      | ok bs =>
        rw [hl] at h
        cases h

namespace Machine

variable {m : Machine}

theorem frame_mem_of_mem_activationsFrom {a : Activation} : ∀ {fs : List Frame} {pc : Nat},
    a ∈ m.activationsFrom pc fs → a.frame ∈ fs
  | [], _, h => by cases h
  | f :: rest, pc, h => by
    unfold activationsFrom at h
    dsimp only at h
    split at h
    · rcases List.mem_cons.1 h with rfl | h
      · exact List.mem_cons_self
      · exact List.mem_cons_of_mem f (frame_mem_of_mem_activationsFrom h)
    · exact List.mem_cons_of_mem f (frame_mem_of_mem_activationsFrom h)

/-! ## Names of frames -/

theorem Named.with_stack (h : m.Named) {fs : List Frame} (hf : ∀ f ∈ fs, (m.image.scopes[f.scope]?).isSome)
    {m' : Machine} (hi : m'.image = m.image) (hs : m'.stack = fs) : m'.Named :=
  ⟨hi ▸ h.global, fun f hmem => hi ▸ hf f (hs ▸ hmem)⟩

theorem Named.effect (h : m.Named) {op : Op} {flow : Flow} {m' : Machine} (he : Exec.Effect m op flow m') :
    m'.Named := by
  have hframes := h.frames
  cases he with
  | stay hst => exact hst.named h
  | jump _ _ hst => exact hst.named h
  | enter _ hst _ _ _ hs =>
    rw [hst] at hframes
    obtain ⟨hcaller, hrest⟩ := List.forall_mem_cons.1 hframes
    refine h.with_stack ?_ (letGo_image _ _) (letGo_stack _ _)
    exact List.forall_mem_cons.2 ⟨Option.isSome_iff_exists.2 ⟨_, hs⟩, List.forall_mem_cons.2 ⟨hcaller, hrest⟩⟩
  | leave _ hst =>
    rw [hst] at hframes
    obtain ⟨-, hcaller⟩ := List.forall_mem_cons.1 hframes
    obtain ⟨hcaller, hrest⟩ := List.forall_mem_cons.1 hcaller
    refine h.with_stack ?_ (letGo_image _ _) (letGo_stack _ _)
    exact List.forall_mem_cons.2 ⟨hcaller, hrest⟩
  | finish | halt =>
    refine h.with_stack ?_ (letGo_image _ _) (letGo_stack _ _)
    exact fun f hf => nomatch hf

/-- **Whatever the image, a step makes frames of known scopes only.** -/
theorem Named.step (h : m.Named) : m.step.2.Named := by
  cases hs : m.step with
  | mk stop m' =>
    cases stop with
    | none =>
      obtain ⟨i, flow, m₁, -, -, -, he, rfl⟩ := step_none hs
      have hc : m.counted.Named := ⟨h.global, h.frames⟩
      have hm₁ := hc.effect he
      refine hm₁.with_stack hm₁.frames ?_ ?_
      · rw [settle_image, flowTo_image]
      · rw [settle_stack]
        cases flow <;> rfl
    | some s =>
      obtain ⟨n, -, hst, -⟩ := step_some hs
      exact hst.named ⟨h.global, h.frames⟩

theorem Named.stepped (h : m.Named) : ∀ n, (m.stepped n).Named
  | 0 => h
  | n + 1 => (h.stepped n).step

theorem Named.restartFrame? (h : m.Named) {m' : Machine} {id : Nat} (hr : m.restartFrame? id = some m') :
    m'.Named := by
  obtain ⟨top, rest, hdrop, hst⟩ := restartFrame?_eq_some hr
  refine hst.named ⟨h.global, ?_⟩
  have hmem : ∀ f ∈ top :: rest, (m.image.scopes[f.scope]?).isSome := by
    intro f hf
    rw [← hdrop] at hf
    exact h.frames f (List.mem_of_mem_drop hf)
  obtain ⟨htop, hrest⟩ := List.forall_mem_cons.1 hmem
  exact List.forall_mem_cons.2 ⟨htop, hrest⟩

theorem named_bottom? {image : Image} {f : Frame} (h : bottom? image = some f) : (image.scopes[f.scope]?).isSome := by
  obtain ⟨s, hs, rfl⟩ := Option.map_eq_some_iff.1 h
  exact Option.isSome_iff_exists.2 ⟨s, hs⟩

theorem Named.rewind (h : m.Named) : m.rewind.Named := by
  refine m.steady_rewind.named ⟨h.global, fun f hf => ?_⟩
  exact named_bottom? (Option.mem_toList.1 hf)

theorem named_create? {image : Image} {limits : Limits} {world : World} (h : create? image limits world = some m) :
    m.Named := by
  obtain ⟨f, hf, rfl⟩ := Option.map_eq_some_iff.1 h
  refine ⟨?_, fun g hg => ?_⟩
  · obtain ⟨s, hs, -⟩ := Option.map_eq_some_iff.1 hf
    exact Option.isSome_iff_exists.2 ⟨s, hs⟩
  · cases List.mem_singleton.1 hg
    exact named_bottom? hf

/-! ## Traces and views -/

theorem frameText_error (hn : m.Named) {f : Frame} (hf : f ∈ m.stack) {a : Abort} (h : m.frameText f = .error a) :
    a = .deadlock := by
  unfold frameText at h
  split at h
  · rename_i hs
    have := hn.frames f hf
    rw [hs] at this
    cases this
  · split at h
    · cases h
    · split at h <;> cases h
      rfl

theorem entriesOf_error (hn : m.Named) {act : Activation} (ha : act ∈ m.activations) {a : Abort}
    (h : m.entriesOf act = .error a) : a = .deadlock := by
  unfold entriesOf at h
  cases hf : m.frameText act.frame with
  | error e =>
    rw [hf] at h
    cases h
    exact frameText_error hn (frame_mem_of_mem_activationsFrom ha) hf
  | ok text =>
    rw [hf] at h
    dsimp only [bind, Except.bind] at h
    split at h <;> cases h

/-- **Every fault can be reported**, unless showing the arguments of a frame never ends. -/
theorem report_error (hn : m.Named) {f : Fault} {a : Abort} (h : m.report f = .error a) : a = .deadlock := by
  unfold report at h
  cases he : m.activations.mapM m.entriesOf with
  | error e =>
    rw [he] at h
    cases h
    obtain ⟨act, ha, hea⟩ := exists_of_mapM_error he
    exact entriesOf_error hn ha hea
  | ok entries =>
    rw [he] at h
    cases h

theorem report_eq_ok {f : Fault} {p : FaultReport} (h : m.report f = .ok p) : p.fault = f ∧ p.pc = m.pc := by
  unfold report at h
  cases he : m.activations.mapM m.entriesOf with
  | error e =>
    rw [he] at h
    cases h
  | ok entries =>
    rw [he] at h
    cases h
    exact ⟨rfl, rfl⟩

theorem stackTrace_error (hn : m.Named) {file : String} {a : Abort} (h : m.stackTrace file = .error a) :
    a = .deadlock := by
  unfold stackTrace at h
  cases he : m.activations.mapM fun a => do
      return traceLine file a.instruction.pos.line (← m.frameText a.frame) with
  | error e =>
    rw [he] at h
    cases h
    obtain ⟨act, ha, hea⟩ := exists_of_mapM_error he
    cases hf : m.frameText act.frame with
    | error e =>
      rw [hf] at hea
      cases hea
      exact frameText_error hn (frame_mem_of_mem_activationsFrom ha) hf
    | ok text =>
      rw [hf] at hea
      cases hea
  | ok entries =>
    rw [he] at h
    cases h

theorem isSome_views? (hn : m.Named) : m.views?.isSome := by
  have hg : m.globalViews?.isSome := by
    unfold globalViews?
    split
    · rfl
    · rw [Option.isSome_map]
      exact hn.global
  obtain ⟨globals, hglobals⟩ := Option.isSome_iff_exists.1 hg
  unfold views?
  rw [hglobals]
  refine isSome_mapM fun a ha => ?_
  unfold view?
  rw [Option.isSome_map]
  exact hn.frames _ (frame_mem_of_mem_activationsFrom ha)

theorem load_ne_badIndex (hn : m.Named) (r : Reference) : m.load r ≠ .error (.abort .badIndex) := by
  intro h
  have := load_missesTable h hn
  cases this

/-! ## Steps -/

theorem step_missesTable (h : m.Sound) {s : Stop} (hs : m.step.1 = some s) : s.missesTable = false := by
  have hstep : m.step = (some s, m.step.2) := by rw [← hs]
  obtain ⟨_, _, _, hmiss⟩ := step_some hstep
  exact hmiss h.wellFormed h.named

theorem peek_global (h : m.Sound) {slot : Nat} {g : Scope} (hg : m.image.global? = some g)
    (hslot : slot < g.locals.length) (hd : 0 < m.depth) : ∃ v, m.peek (.global slot) = .ok v := by
  obtain ⟨f, hf, hp⟩ := h.frame? hd
  obtain ⟨g', hg', hlen⟩ := hp.locals
  rw [hg] at hg'
  cases hg'
  have hlt : slot < f.locals.length := by
    have : f.locals.length = g.locals.length := hlen
    omega
  simp only [peek, hf, localOf, List.getElem?_eq_getElem hlt]
  exact ⟨_, rfl⟩

theorem load_global_ne_slotOutOfRange (h : m.Sound) {slot : Nat} {g : Scope} (hg : m.image.global? = some g)
    (hslot : slot < g.locals.length) (hd : 0 < m.depth) (k : Nat) :
    m.load (.global slot) ≠ .error (.fault (.internal (.slotOutOfRange k))) := by
  obtain ⟨v, hv⟩ := peek_global h hg hslot hd
  intro hl
  unfold load at hl
  rw [hv] at hl
  cases v with
  | some v => cases hl
  | none =>
    dsimp only at hl
    split at hl <;> cases hl

/-- **An instruction that reads a global never finds its slot missing.** -/
theorem step_globalVal_ne_slotOutOfRange (h : m.Sound) {i : Instruction} (hi : m.current? = some i) {slot : Nat}
    (hop : i.op = .globalVal slot) (k : Nat) : m.step.1 ≠ some (.fault (.internal (.slotOutOfRange k))) := by
  intro hs
  obtain ⟨hd, hcode⟩ := instruction?_of_current? hi
  obtain ⟨g, hg, hslot⟩ : ∃ g, m.image.global? = some g ∧ slot < g.locals.length := by
    have ha := h.wellFormed.code m.pc i hcode
    rw [hop] at ha
    exact ha
  obtain hlimit | ⟨m', ho⟩ := stop_of_step hi hs
  · cases hlimit
  rw [hop] at ho
  obtain hload | ⟨_, _, _, hnext⟩ := Exec.bind_error_iff.1 ho
  · obtain hl | ⟨v, m₁, hl, hpush⟩ := Exec.bind_error_iff.1 hload
    · rw [Exec.load_eq] at hl
      split at hl <;> cases hl
      rename_i he
      exact load_global_ne_slotOutOfRange (h.counted _) hg hslot hd k he
    · obtain htop | ⟨_, _, _, hset⟩ := Exec.bind_error_iff.1 hpush
      · rw [Exec.top_eq] at htop
        split at htop <;> cases htop
      · cases hset
  · cases hnext

/-- **No look-up in a table of a valid image ever misses**, whatever a program and its debugger have done so far: not
one of a step, not one of a trace, of a message or of a view of the frames, and none of a listing, which exists unless
an operand asks for more text than there can be. -/
theorem table_safety {image : Image} (hv : image.isValid = true) (limits : Limits) (world : World) :
    ∃ m₀, create? image limits world = some m₀ ∧ ∀ m, m₀.Reachable m →
      (∀ s, m.step.1 = some s → s.missesTable = false) ∧
      (∀ i slot k, m.current? = some i → i.op = .globalVal slot →
        m.step.1 ≠ some (.fault (.internal (.slotOutOfRange k)))) ∧
      (∀ f, m.report f ≠ .error .badIndex) ∧
      (∀ file, m.stackTrace file ≠ .error .badIndex) ∧
      (∀ r, m.load r ≠ .error (.abort .badIndex) ∧ (m.describe? r).isSome) ∧
      m.views?.isSome ∧
      ((∀ i ∈ m.image.code, Listing.Fits i.op) → ∀ source, (m.image.listing source).isSome) := by
  have hw := Image.isValid_iff.1 hv
  obtain ⟨g, hg⟩ := Option.isSome_iff_exists.1 hw.isSome_global?
  have h₀ : create? image limits world = some
      ⟨image, limits, 0, [.fresh image.globalScope 0 0 [] g.locals.length], 0, none, [], [], world⟩ := by
    rw [create?, bottom?, hg]
    rfl
  refine ⟨_, h₀, fun m h => ?_⟩
  have hs : m.Sound := h.sound (sound_create? hv h₀)
  have hreport : ∀ f, m.report f ≠ .error .badIndex := by
    intro f hf
    cases report_error hs.named hf
  have htrace : ∀ file, m.stackTrace file ≠ .error .badIndex := by
    intro file hf
    cases stackTrace_error hs.named hf
  exact ⟨fun s => step_missesTable hs, fun i slot k hi hop => step_globalVal_ne_slotOutOfRange hs hi hop k,
    hreport, htrace,
    fun r => ⟨load_ne_badIndex hs.named r, isSome_describe? hs.named r⟩, isSome_views? hs.named,
    fun hf source => Image.isSome_listing hs.wellFormed hf source⟩

/-- Three calls deep, every frame is shown and every fault can be traced. -/
theorem table_safety_selfCall : selfCall.isValid = true ∧ (selfCallStart.stepped 8).depth = 4 ∧
    (selfCallStart.stepped 8).views?.isSome ∧ (∀ f, (selfCallStart.stepped 8).report f ≠ .error .badIndex) ∧
    ∀ s, (selfCallStart.stepped 8).step.1 = some s → s.missesTable = false := by
  have hv : selfCall.isValid = true := by decide
  obtain ⟨m₀, h₀, hall⟩ := table_safety hv {} selfCallStart.world
  obtain rfl : selfCallStart = m₀ := Option.some.inj h₀
  obtain ⟨hstep, -, hreport, -, -, hviews, -⟩ := hall _ (reachable_stepped selfCallStart 8)
  exact ⟨hv, by decide, hviews, hreport, hstep⟩

end Machine

end PseudoVm
