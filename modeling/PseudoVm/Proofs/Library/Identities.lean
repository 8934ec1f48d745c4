import PseudoVm.Library.Call
import PseudoVm.Proofs.Value.Graft
import PseudoVm.Proofs.World.GraftedRelease
/-!
# Library.Identities: library functions do not look at identities

A library function does the same whatever identities the arrays and objects that it is given go by
(`Library.blind_call`).  It leaves the heap as it was, and the only storage that it hands out is a file that it opened.
-/
namespace PseudoVm

section

variable {α β γ δ : Type} {ρ : α → β} {Q : α → Prop}

/-- **One computation comes to what another does, by other names**, and to what meets a condition. -/
structure Renamed (ρ : α → β) (Q : α → Prop) (r : Except Fault α) (r' : Except Fault β) : Prop where
  eq : r' = r.map ρ
  holds : ∀ {a}, r = .ok a → Q a

/-- A computation that comes to the same. -/
abbrev Same (r r' : Except Fault α) : Prop := Renamed id (fun _ => True) r r'

namespace Renamed

theorem of_eq {a : α} {b : β} (hb : ρ a = b) (h : Q a) : Renamed ρ Q (.ok a) (.ok b) :=
  ⟨congrArg Except.ok hb.symm, fun he => by cases he; exact h⟩

theorem ok {a : α} (h : Q a) : Renamed ρ Q (.ok a) (.ok (ρ a)) := .of_eq rfl h

theorem error (e : Fault) : Renamed ρ Q (.error e) (.error e) := ⟨rfl, nofun⟩

theorem bind {σ : γ → δ} {P : γ → Prop} {r : Except Fault α} {r' : Except Fault β} {k : α → Except Fault γ}
    {k' : β → Except Fault δ} (h : Renamed ρ Q r r') (hk : ∀ a, Q a → Renamed σ P (k a) (k' (ρ a))) :
    Renamed σ P (r >>= k) (r' >>= k') := by
  rw [h.eq]
  cases hr : r with
  | error e => exact .error e
  | ok a => exact hk a (h.holds hr)

theorem same (r : Except Fault α) : Same r r := ⟨by cases r <;> rfl, fun _ => trivial⟩

theorem eq_of_same {r r' : Except Fault α} (h : Same r r') : r' = r := by
  rw [h.eq]
  cases r <;> rfl

end Renamed

end

/-! ## Types -/

namespace Value

variable (g : Graft) {R : Region} (v : Value)

theorem same_asInt : Same v.asInt (g.value v).asInt := by cases v <;> first | exact .ok trivial | exact .error _

theorem same_asReal : Same v.asReal (g.value v).asReal := by cases v <;> first | exact .ok trivial | exact .error _

theorem same_asBool : Same v.asBool (g.value v).asBool := by cases v <;> first | exact .ok trivial | exact .error _

theorem same_asChar : Same v.asChar (g.value v).asChar := by cases v <;> first | exact .ok trivial | exact .error _

theorem same_asStr : Same v.asStr (g.value v).asStr := by cases v <;> first | exact .ok trivial | exact .error _

theorem same_toReal : Same v.toReal (g.value v).toReal := by cases v <;> first | exact .ok trivial | exact .error _

theorem same_asFile : Same v.asFile (g.value v).asFile := by cases v <;> first | exact .ok trivial | exact .error _

variable {v}

theorem renamed_asArray (hv : v.Within R) :
    Renamed g.array (fun id => R (.array id)) v.asArray (g.value v).asArray := by
  cases v <;> first | exact .ok (hv _ rfl) | exact .error _

theorem renamed_asObject (hv : v.Within R) :
    Renamed (Prod.map id g.object) (fun p => R (.object p.2)) v.asObject (g.value v).asObject := by
  cases v <;> first | exact .ok (hv _ rfl) | exact .error _

theorem renamed_asReference (hv : v.Within R) :
    Renamed g.reference (fun r => (Value.ref r).Within R) v.asReference (g.value v).asReference := by
  cases v <;> first | exact .ok hv | exact .error _

end Value

/-- An end of a call with the graft in the heap. -/
def Graft.answer (g : Graft) : EStateM.Result Stop World (Option Value) → EStateM.Result Stop World (Option Value)
  | .ok v w => .ok (v.map g.value) (g.world w)
  | .error s w => .error s (g.world w)

/-- Storage that one world has beyond another. -/
def World.Adds (w w₁ : World) : Region
  | .file id => w.files.size ≤ id.index ∧ id.index < w₁.files.size
  | s => w.heap.Adds w₁.heap s

namespace Library

variable (g : Graft)

/-- A value that refers to no storage. -/
abbrev Plain (v : Value) : Prop := v.storage? = none

theorem value_of_plain {v : Value} (h : Plain v) : g.value v = v := g.value_of_fixed (Value.within_of_none h)

theorem renamed_plain {v : Value} (h : Plain v) : Renamed g.value Plain (.ok v) (.ok v) := .of_eq (value_of_plain g h) h

theorem renamed_one (function : String) (args : List Value) :
    Renamed g.value (fun _ => True) (one function args) (one function (args.map g.value)) := by
  rcases args with _ | ⟨a, _ | ⟨b, args⟩⟩
  · exact .error _
  · exact .ok trivial
  · simp only [one, wrongCount, List.map_cons, List.length_cons, List.length_map]
    exact .error _

theorem renamed_two (function : String) (args : List Value) :
    Renamed (Prod.map g.value g.value) (fun _ => True) (two function args) (two function (args.map g.value)) := by
  rcases args with _ | ⟨a, _ | ⟨b, _ | ⟨c, args⟩⟩⟩
  · exact .error _
  · exact .error _
  · exact .ok trivial
  · simp only [two, wrongCount, List.map_cons, List.length_cons, List.length_map]
    exact .error _

theorem renamed_three (function : String) (args : List Value) :
    Renamed (Prod.map g.value (Prod.map g.value g.value)) (fun _ => True) (three function args)
      (three function (args.map g.value)) := by
  rcases args with _ | ⟨a, _ | ⟨b, _ | ⟨c, _ | ⟨d, args⟩⟩⟩⟩
  · exact .error _
  · exact .error _
  · exact .error _
  · exact .ok trivial
  · simp only [three, wrongCount, List.map_cons, List.length_cons, List.length_map]
    exact .error _

theorem same_noArguments (function : String) (args : List Value) :
    Same (noArguments function args) (noArguments function (args.map g.value)) := by
  cases args with
  | nil => exact .ok trivial
  | cons a args =>
    simp only [noArguments, wrongCount, List.map_cons, List.length_cons, List.length_map]
    exact .error _

theorem same_textOf (v : Value) : Same (textOf v) (textOf (g.value v)) := (v.same_asStr g).bind fun _ _ => .ok trivial

/-! ## Functions on numbers and strings -/

/-- A function whose result refers to no storage, and which does not tell its arguments' storage apart. -/
abbrev Computes (f : List Value → Except Fault Value) : Prop :=
  ∀ args, Renamed g.value Plain (f args) (f (args.map g.value))

theorem computes_realFunction (function : String) (f : Float → Float) : Computes g (realFunction function f) :=
  fun _ => (renamed_one g _ _).bind fun a _ => (a.same_toReal g).bind fun _ _ => renamed_plain g rfl

theorem computes_pow : Computes g pow := fun _ =>
  (renamed_two g _ _).bind fun p _ => (p.1.same_toReal g).bind fun _ _ => (p.2.same_toReal g).bind fun _ _ =>
    renamed_plain g rfl

theorem computes_abs : Computes g abs := fun _ => (renamed_one g _ _).bind fun a _ => by
  cases a
  case int n => exact renamed_plain g rfl
  all_goals exact (Value.same_toReal g _).bind fun _ _ => renamed_plain g rfl

theorem computes_toInteger : Computes g toInteger := fun _ =>
  (renamed_one g _ _).bind fun a _ => (a.same_asReal g).bind fun _ _ => renamed_plain g rfl

theorem computes_toReal : Computes g toReal := fun _ =>
  (renamed_one g _ _).bind fun a _ => (a.same_asInt g).bind fun _ _ => renamed_plain g rfl

theorem computes_integerFormat : Computes g integerFormat := fun _ =>
  (renamed_one g _ _).bind fun a _ => (a.same_asInt g).bind fun _ _ => renamed_plain g rfl

theorem computes_amountFormat (function mark : String) : Computes g (amountFormat function mark) := fun _ =>
  (renamed_one g _ _).bind fun a _ => (a.same_toReal g).bind fun _ _ => (Renamed.same _).bind fun _ _ =>
    renamed_plain g rfl

theorem computes_length : Computes g length := fun _ =>
  (renamed_one g _ _).bind fun a _ => (a.same_asStr g).bind fun _ _ => renamed_plain g rfl

theorem computes_append : Computes g append := fun _ =>
  (renamed_two g _ _).bind fun p _ => (p.1.same_asStr g).bind fun _ _ => (p.2.same_asStr g).bind fun _ _ =>
    renamed_plain g rfl

theorem computes_caseMap (function : String) (f : UInt8 → UInt8) : Computes g (caseMap function f) := fun _ =>
  (renamed_one g _ _).bind fun a _ => (a.same_asStr g).bind fun _ _ => renamed_plain g rfl

theorem computes_substring : Computes g substring := fun _ =>
  (renamed_three g _ _).bind fun p _ => (p.1.same_asStr g).bind fun s _ => (p.2.1.same_asInt g).bind fun first _ =>
    (p.2.2.same_asInt g).bind fun last _ => by
      dsimp only [id]
      split
      · exact renamed_plain g rfl
      · exact .error _

theorem computes_contains : Computes g contains := fun _ =>
  (renamed_two g _ _).bind fun p _ => (p.1.same_asStr g).bind fun _ _ => (p.2.same_asStr g).bind fun _ _ =>
    renamed_plain g rfl

theorem computes_stringToInteger : Computes g stringToInteger := fun _ =>
  (renamed_one g _ _).bind fun a _ => (same_textOf g a).bind fun text _ => by
    dsimp only [id]
    split
    · exact renamed_plain g rfl
    · exact .error _

theorem computes_stringToReal : Computes g stringToReal := fun _ =>
  (renamed_one g _ _).bind fun a _ => (same_textOf g a).bind fun text _ => by
    dsimp only [id]
    split
    · exact renamed_plain g rfl
    · exact .error _

theorem computes_isInteger : Computes g isInteger := fun _ =>
  (renamed_one g _ _).bind fun a _ => (same_textOf g a).bind fun _ _ => renamed_plain g rfl

theorem computes_isReal : Computes g isReal := fun _ =>
  (renamed_one g _ _).bind fun a _ => (same_textOf g a).bind fun _ _ => renamed_plain g rfl

/-! ## Functions on files -/

/-- From one world to another the heap is the same, and no file went missing. -/
structure Spares (w w₁ : World) : Prop where
  heap : w₁.heap = w.heap
  files : w.files.size ≤ w₁.files.size

theorem Spares.refl (w : World) : Spares w w := ⟨rfl, Nat.le_refl _⟩

theorem spares_setFile (w : World) (id : FileId) (state : FileState) : Spares w (w.setFile id state) :=
  ⟨rfl, by simp [World.setFile]⟩

theorem within_of_plain {R : Region} {v : Value} (h : Plain v) : v.Within R := Value.within_of_none h

variable {w : World}

theorem renamed_openOutput (function : String) (appends : Bool) (args : List Value) :
    Renamed (Prod.map g.value g.world) (fun p => Spares w p.2 ∧ p.1.Within (w.Adds p.2))
      (openOutput function appends args w) (openOutput function appends (args.map g.value) (g.world w)) := by
  refine (renamed_one g _ _).bind fun a _ => (same_textOf g a).bind fun text _ => ?_
  have hdisk : (g.world w).disk = w.disk := rfl
  dsimp only [id]
  rw [hdisk]
  cases w.disk.openOutput (shownPath text) with
  | error e => exact .error _
  | ok p =>
    refine .of_eq rfl ⟨⟨rfl, ?_⟩, ?_⟩
    · simp [World.addFile]
    · rintro s ⟨⟩
      exact ⟨Nat.le_refl _, by simp [World.addFile]⟩

theorem renamed_openInput (args : List Value) :
    Renamed (Prod.map g.value g.world) (fun p => Spares w p.2 ∧ p.1.Within (w.Adds p.2)) (openInput args w)
      (openInput (args.map g.value) (g.world w)) := by
  refine (renamed_one g _ _).bind fun a _ => (same_textOf g a).bind fun text _ => ?_
  have hdisk : (g.world w).disk = w.disk := rfl
  dsimp only [id]
  rw [hdisk]
  cases w.disk.openInput (shownPath text) with
  | error e => exact .error _
  | ok path =>
    refine .of_eq rfl ⟨⟨rfl, ?_⟩, ?_⟩
    · simp [World.addFile]
    · rintro s ⟨⟩
      exact ⟨Nat.le_refl _, by simp [World.addFile]⟩

theorem same_stateOf (v : Value) : Same (stateOf v w) (stateOf (g.value v) (g.world w)) := by
  refine (v.same_asFile g).bind fun id _ => ?_
  exact .same _

theorem writeOut_world (id : FileId) : (g.world w).writeOut id = g.world (w.writeOut id) := by
  have hfile : (g.world w).file? id = w.file? id := rfl
  unfold World.writeOut
  rw [hfile]
  split
  · split <;> rfl
  · rfl

theorem spares_writeOut (w : World) (id : FileId) : Spares w (w.writeOut id) := by
  unfold World.writeOut
  split
  · split <;> exact ⟨rfl, Nat.le_refl _⟩
  · exact .refl w

theorem renamed_close (args : List Value) :
    Renamed g.world (Spares w) (close args w) (close (args.map g.value) (g.world w)) := by
  refine (renamed_one g _ _).bind fun a _ => (same_stateOf g a).bind fun p _ => ?_
  dsimp only [id]
  split
  · exact .error _
  · rw [writeOut_world]
    refine .of_eq rfl ?_
    exact ⟨(spares_writeOut w p.1).heap, Nat.le_trans (spares_writeOut w p.1).files (spares_setFile _ _ _).files⟩

theorem same_fileText (v : Value) : Same (fileText v) (fileText (g.value v)) := by
  cases v with
  | bool b => cases b <;> exact .same _
  | ref r => exact .error _
  | _ => exact .same _

theorem same_fileTexts : ∀ values : List Value, Same (fileTexts values) (fileTexts (values.map g.value))
  | [] => .ok trivial
  | v :: rest => (same_fileText g v).bind fun _ _ => (same_fileTexts rest).bind fun _ _ => .ok trivial

theorem renamed_writeFile (args : List Value) :
    Renamed g.world (Spares w) (writeFile args w) (writeFile (args.map g.value) (g.world w)) := by
  cases args with
  | nil => exact .error _
  | cons file values =>
    refine (same_fileTexts g values).bind fun bytes _ => (same_stateOf g file).bind fun p _ => ?_
    dsimp only [id]
    split
    · exact .of_eq rfl (spares_setFile w _ _)
    · exact .error _
    · exact .error _

theorem renamed_eof (args : List Value) :
    Renamed (Prod.map g.value g.world) (fun p => Spares w p.2 ∧ p.1.Within (w.Adds p.2)) (eof args w)
      (eof (args.map g.value) (g.world w)) := by
  refine (renamed_one g _ _).bind fun a _ => (same_stateOf g a).bind fun p _ => (Renamed.same _).bind fun q _ =>
    (Renamed.same _).bind fun r _ => ?_
  exact .of_eq rfl ⟨spares_setFile w _ _, within_of_plain rfl⟩

theorem nextLine_world (function : String) (v : Value) :
    nextLine function (g.value v) (g.world w) = ((nextLine function v w).1, g.world (nextLine function v w).2) := by
  have hdisk : (g.world w).disk = w.disk := rfl
  unfold nextLine
  rw [(same_stateOf g v).eq_of_same, hdisk]
  split
  · rfl
  · dsimp only
    split
    · rfl
    · split <;> rfl

theorem spares_nextLine (function : String) (v : Value) (w : World) : Spares w (nextLine function v w).2 := by
  unfold nextLine
  split
  · exact .refl w
  · dsimp only
    split
    · exact spares_setFile w _ _
    · split <;> exact spares_setFile w _ _

theorem readValue_world (function : String) (understand : String → Option Value)
    (hplain : ∀ line v, understand line = some v → Plain v) (args : List Value) :
    readValue function understand (args.map g.value) (g.world w) =
        ((readValue function understand args w).1.map g.value, g.world (readValue function understand args w).2) ∧
      Spares w (readValue function understand args w).2 ∧
      ∀ v, (readValue function understand args w).1 = .ok v → Plain v := by
  unfold readValue
  rw [(renamed_one g function args).eq]
  cases one function args with
  | error e => exact ⟨rfl, .refl w, nofun⟩
  | ok file =>
    dsimp only [Except.map]
    have hspares := spares_nextLine function file w
    rw [nextLine_world]
    generalize nextLine function file w = p at hspares
    obtain ⟨r, w₁⟩ := p
    cases r with
    | error e => exact ⟨rfl, hspares, nofun⟩
    | ok line =>
      dsimp only
      cases hu : understand line with
      | none => exact ⟨rfl, hspares, nofun⟩
      | some v =>
        have hv := value_of_plain g (hplain line v hu)
        exact ⟨by simp only [hv], hspares, fun u he => by cases he; exact hplain line v hu⟩

/-! ## Calls -/

/-- **A call that does the same whatever storage goes by**, spares the heap, and hands out no storage but files. -/
structure Blind (a a' : Act (Option Value)) : Prop where
  graft : ∀ w, g.Fits w.heap → a' (g.world w) = g.answer (a w)
  ok : ∀ {w v w₁}, a w = .ok v w₁ → Spares w w₁ ∧ ∀ u, v = some u → u.Within (w.Adds w₁)
  error : ∀ {w s w₁}, a w = .error s w₁ → Spares w w₁

theorem blind_computed {f : List Value → Except Fault Value} (hf : Computes g f) (args : List Value) :
    Blind g (computed (f args)) (computed (f (args.map g.value))) := by
  have h := hf args
  refine ⟨fun w _ => ?_, fun {w v w₁} he => ?_, fun {w s w₁} he => ?_⟩
  · rw [h.eq]
    cases f args <;> rfl
  · cases hr : f args with
    | error e => rw [hr] at he; cases he
    | ok u =>
      rw [hr] at he
      cases he
      exact ⟨.refl w, fun u hu => by cases hu; exact within_of_plain (h.holds hr)⟩
  · cases hr : f args <;> rw [hr] at he <;> cases he
    exact .refl w

theorem blind_update {f f' : World → Except Fault (Value × World)}
    (hf : ∀ w, Renamed (Prod.map g.value g.world) (fun p => Spares w p.2 ∧ p.1.Within (w.Adds p.2)) (f w)
      (f' (g.world w))) :
    Blind g (update f) (update f') := by
  refine ⟨fun w _ => ?_, fun {w v w₁} he => ?_, fun {w s w₁} he => ?_⟩
  · rw [update, update, (hf w).eq]
    cases f w <;> rfl
  · unfold update at he
    split at he <;> cases he
    rename_i hr
    obtain ⟨hspares, hwithin⟩ := (hf w).holds hr
    exact ⟨hspares, fun u hu => by cases hu; exact hwithin⟩
  · unfold update at he
    split at he <;> cases he
    exact .refl w

theorem blind_effect {f f' : World → Except Fault World}
    (hf : ∀ w, Renamed g.world (Spares w) (f w) (f' (g.world w))) : Blind g (effect f) (effect f') := by
  refine ⟨fun w _ => ?_, fun {w v w₁} he => ?_, fun {w s w₁} he => ?_⟩
  · rw [effect, effect, (hf w).eq]
    cases f w <;> rfl
  · unfold effect at he
    split at he <;> cases he
    rename_i hr
    exact ⟨(hf w).holds hr, nofun⟩
  · unfold effect at he
    split at he <;> cases he
    exact .refl w

theorem blind_readValue (function : String) (understand : String → Option Value)
    (hplain : ∀ line v, understand line = some v → Plain v) (args : List Value) :
    Blind g (attempt (readValue function understand args))
      (attempt (readValue function understand (args.map g.value))) := by
  have h := fun w => readValue_world g (w := w) function understand hplain args
  refine ⟨fun w _ => ?_, fun {w v w₁} he => ?_, fun {w s w₁} he => ?_⟩
  · obtain ⟨heq, -⟩ := h w
    rw [attempt, attempt, heq]
    generalize readValue function understand args w = p
    obtain ⟨r, w₁⟩ := p
    cases r <;> rfl
  · obtain ⟨-, hspares, hanswer⟩ := h w
    unfold attempt at he
    split at he <;> cases he
    rename_i hr
    rw [hr] at hspares hanswer
    exact ⟨hspares, fun u hu => by cases hu; exact within_of_plain (hanswer _ rfl)⟩
  · obtain ⟨-, hspares, -⟩ := h w
    unfold attempt at he
    split at he <;> cases he
    rename_i hr
    rw [hr] at hspares
    exact hspares

theorem blind_display (args : List Value) : Blind g (display args) (display (args.map g.value)) := by
  refine ⟨fun w hf => ?_, fun {w v w₁} he => ?_, fun {w s w₁} he => ?_⟩
  · have htext : displayAll (g.heap w.heap) (args.map g.value) = displayAll w.heap args := by
      rw [displayAll, displayAll, Graft.mapM_map_of_eq fun v _ => Graft.display?_heap hf v]
    have hheap : (g.world w).heap = g.heap w.heap := rfl
    rw [display, display, hheap, htext]
    cases displayAll w.heap args <;> rfl
  · unfold display at he
    split at he <;> cases he
    exact ⟨⟨rfl, Nat.le_refl _⟩, nofun⟩
  · unfold display at he
    split at he <;> cases he
    exact .refl w

theorem blind_ask {α : Type} (function : String) (d : Dialogue α) {value : α → Value} (hplain : ∀ a, Plain (value a))
    (args : List Value) : Blind g (ask function d value args) (ask function d value (args.map g.value)) := by
  refine ⟨fun w _ => ?_, fun {w v w₁} he => ?_, fun {w s w₁} he => ?_⟩
  · have hconsole : (g.world w).console = w.console := rfl
    rw [ask, ask, (same_noArguments g function args).eq_of_same, hconsole]
    cases noArguments function args with
    | error e => rfl
    | ok _ =>
      dsimp only
      cases d.ask w.console with
      | mk r console =>
        cases r with
        | error e => rfl
        | ok a =>
          simp only [Graft.answer, Option.map_some, value_of_plain g (hplain a)]
          rfl
  · unfold ask at he
    split at he
    · cases he
    · split at he <;> cases he
      exact ⟨⟨rfl, Nat.le_refl _⟩, fun u hu => by cases hu; exact within_of_plain (hplain _)⟩
  · unfold ask at he
    split at he
    · cases he
      exact .refl w
    · split at he <;> cases he
      exact ⟨rfl, Nat.le_refl _⟩

theorem blind_random (args : List Value) : Blind g (random args) (random (args.map g.value)) := by
  refine blind_update g fun w => (renamed_two g _ _).bind fun p _ => (p.1.same_asInt g).bind fun low _ =>
    (p.2.same_asInt g).bind fun high _ => ?_
  dsimp only [id]
  split
  · exact .error _
  · exact .of_eq rfl ⟨⟨rfl, Nat.le_refl _⟩, within_of_plain rfl⟩

theorem plain_of_map {α : Type} {r : Option α} {value : α → Value} (h : ∀ a, Plain (value a)) {v : Value}
    (hv : r.map value = some v) : Plain v := by
  obtain ⟨a, -, rfl⟩ := Option.map_eq_some_iff.1 hv
  exact h a

/-- **No library function looks at identities.** -/
theorem blind_call (f : LibraryFunction) (args : List Value) : Blind g (call f args) (call f (args.map g.value)) := by
  cases f <;> unfold call
  case display => exact blind_display g args
  case inputInteger | inputReal | inputString | inputCharacter | inputBoolean =>
    exact blind_ask g _ _ (fun _ => rfl) args
  case random => exact blind_random g args
  case sqrt | cos | round | sin | tan => exact blind_computed g (computes_realFunction g _ _) args
  case pow => exact blind_computed g (computes_pow g) args
  case abs => exact blind_computed g (computes_abs g) args
  case toInteger => exact blind_computed g (computes_toInteger g) args
  case toReal => exact blind_computed g (computes_toReal g) args
  case integerFormat => exact blind_computed g (computes_integerFormat g) args
  case realFormat | currencyFormat => exact blind_computed g (computes_amountFormat g _ _) args
  case length => exact blind_computed g (computes_length g) args
  case append => exact blind_computed g (computes_append g) args
  case toUpper | toLower => exact blind_computed g (computes_caseMap g _ _) args
  case substring => exact blind_computed g (computes_substring g) args
  case contains => exact blind_computed g (computes_contains g) args
  case stringToInteger => exact blind_computed g (computes_stringToInteger g) args
  case stringToReal => exact blind_computed g (computes_stringToReal g) args
  case isInteger => exact blind_computed g (computes_isInteger g) args
  case isReal => exact blind_computed g (computes_isReal g) args
  case openOutputFile | openAppendFile => exact blind_update g fun w => renamed_openOutput g _ _ args
  case openInputFile => exact blind_update g fun w => renamed_openInput g args
  case closeOutputFile | closeInputFile => exact blind_effect g fun w => renamed_close g args
  case writeFile => exact blind_effect g fun w => renamed_writeFile g args
  case readInteger => exact blind_readValue g _ _ (fun _ _ => plain_of_map fun _ => rfl) args
  case readReal => exact blind_readValue g _ _ (fun _ _ => plain_of_map fun _ => rfl) args
  case readString => exact blind_readValue g _ _ (fun _ _ => plain_of_map fun _ => rfl) args
  case readCharacter =>
    refine blind_readValue g _ _ (fun line v hv => ?_) args
    unfold characterLine? at hv
    split at hv <;> cases hv
    rfl
  case readBoolean => exact blind_readValue g _ _ (fun _ _ => plain_of_map fun _ => rfl) args
  case eof => exact blind_update g fun w => renamed_eof g args

end Library

end PseudoVm
