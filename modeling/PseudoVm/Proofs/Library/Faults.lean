import PseudoVm.Library.Call
import PseudoVm.Machine.Operators
/-!
# Library.Faults: which faults operators and library functions report

What operators, type checks and library functions report is about the values that they were given, or about the files
and the console (`Fault.isOfOperation`).  So none of them fails because a table of the image lacks an entry
(`Stop.missesTable`), and a library function stops for no other reason unless it waits for ever to show a value
(`Library.call_stops`).
-/
namespace PseudoVm

/-- Whether a fault is that a table of the image lacks an entry. -/
def Fault.missesTable : Fault → Bool
  | .internal (.stringNotFound _) | .internal (.scopeNotFound _) => true
  | _ => false

/-- Whether an instruction stops because a table of the image lacks an entry. -/
def Stop.missesTable : Stop → Bool
  | .fault f => f.missesTable
  | .abort a => a == .badIndex

/-- Whether a fault is about the values that an operation was given, or about files and the console. -/
def Fault.isOfOperation : Fault → Bool
  | .typeMismatch .. | .indexOutOfRange .. | .divideByZero | .libArgument .. | .fileNotOpen | .io _
  | .badInstruction _ => true
  | _ => false

/-- Whether a fault is that a cell is not there. -/
def Fault.isOfCell : Fault → Bool
  | .internal .noFrame | .internal .deadFrame | .internal (.slotOutOfRange _) | .internal (.fieldOutOfRange _)
  | .indexOutOfRange .. => true
  | _ => false

/-- Whether a fault is neither about a table of the image nor about the limit on instructions. -/
def Fault.isPlain : Fault → Bool
  | .instructionLimit | .internal (.stringNotFound _) | .internal (.scopeNotFound _) => false
  | _ => true

theorem Fault.isPlain_of_isOfOperation {f : Fault} (h : f.isOfOperation = true) : f.isPlain = true := by
  cases f <;> first | rfl | cases h

theorem Fault.isPlain_of_isOfCell {f : Fault} (h : f.isOfCell = true) : f.isPlain = true := by
  cases f with
  | internal cause => cases cause <;> first | rfl | cases h
  | _ => first | rfl | cases h

theorem Fault.missesTable_of_isPlain {f : Fault} (h : f.isPlain = true) : f.missesTable = false := by
  cases f with
  | internal cause => cases cause <;> first | rfl | cases h
  | _ => rfl

/-- A computation that has no faults but those of operations. -/
def Ordinary {α : Type} (r : Except Fault α) : Prop := ∀ f, r = .error f → f.isOfOperation = true

namespace Ordinary

@[simp] theorem ok {α : Type} (a : α) : Ordinary (.ok a : Except Fault α) := fun _ h => by cases h

@[simp] theorem error_iff {α : Type} (f : Fault) :
    Ordinary (.error f : Except Fault α) ↔ f.isOfOperation = true :=
  ⟨fun h => h f rfl, fun h _ he => by cases he; exact h⟩

theorem mismatch {α : Type} (expected : TypeName) (found : Value) :
    Ordinary (.error (.mismatch expected found) : Except Fault α) := (error_iff _).2 rfl

@[simp] theorem pure {α : Type} (a : α) : Ordinary (pure a : Except Fault α) := ok a

theorem bind {α β : Type} {r : Except Fault α} {k : α → Except Fault β} (hr : Ordinary r)
    (hk : ∀ a, Ordinary (k a)) : Ordinary (r >>= k) := by
  cases r with
  | ok a => exact hk a
  | error f => exact (error_iff f).2 (hr f rfl)

end Ordinary

section Types

variable (v : Value)

theorem ordinary_asInt : Ordinary v.asInt := by cases v <;> first | exact .ok _ | exact .mismatch _ _

theorem ordinary_asReal : Ordinary v.asReal := by cases v <;> first | exact .ok _ | exact .mismatch _ _

theorem ordinary_asBool : Ordinary v.asBool := by cases v <;> first | exact .ok _ | exact .mismatch _ _

theorem ordinary_asChar : Ordinary v.asChar := by cases v <;> first | exact .ok _ | exact .mismatch _ _

theorem ordinary_asStr : Ordinary v.asStr := by cases v <;> first | exact .ok _ | exact .mismatch _ _

theorem ordinary_asArray : Ordinary v.asArray := by cases v <;> first | exact .ok _ | exact .mismatch _ _

theorem ordinary_asObject : Ordinary v.asObject := by cases v <;> first | exact .ok _ | exact .mismatch _ _

theorem ordinary_asFile : Ordinary v.asFile := by cases v <;> first | exact .ok _ | exact .mismatch _ _

theorem ordinary_asReference : Ordinary v.asReference := by cases v <;> first | exact .ok _ | exact .mismatch _ _

theorem ordinary_toReal : Ordinary v.toReal := by cases v <;> first | exact .ok _ | exact .mismatch _ _

end Types

namespace Operators

theorem ordinary_compared (op : BinaryOp) (order : Ordering) (type : String) : Ordinary (compared op order type) := by
  unfold compared
  split
  · exact .ok _
  · exact (Ordinary.error_iff _).2 rfl

theorem ordinary_ints (op : BinaryOp) (a b : Int64) : Ordinary (ints op a b) := by
  cases op <;> simp only [ints]
  case div | mod => split <;> simp [Fault.isOfOperation]
  all_goals first | exact .ok _ | exact ordinary_compared _ _ _

theorem ordinary_reals (op : BinaryOp) (a b : Float) : Ordinary (reals op a b) := by
  cases op <;> simp [reals, undefined, Fault.isOfOperation]

theorem ordinary_strings (op : BinaryOp) (a b : Bytes) : Ordinary (strings op a b) := by
  unfold strings
  split
  · exact .ok _
  · exact ordinary_compared _ _ _

theorem ordinary_chars (op : BinaryOp) (a b : UInt8) : Ordinary (chars op a b) := ordinary_compared _ _ _

theorem ordinary_bools (op : BinaryOp) (a b : Bool) : Ordinary (bools op a b) := by
  cases op <;> simp [bools, undefined, Fault.isOfOperation]

theorem ordinary_continues (kind : Counter) (val stop step : Value) : Ordinary (continues kind val stop step) := by
  cases kind with
  | int =>
    exact (ordinary_asInt val).bind fun _ => (ordinary_asInt stop).bind fun _ =>
      (ordinary_asInt step).bind fun _ => .pure _
  | real =>
    exact (ordinary_asReal val).bind fun _ => (ordinary_asReal stop).bind fun _ =>
      (ordinary_asReal step).bind fun _ => .pure _

theorem ordinary_advance (kind : Counter) (current step : Value) : Ordinary (advance kind current step) := by
  cases kind with
  | int => exact (ordinary_asInt current).bind fun _ => (ordinary_asInt step).bind fun _ => .pure _
  | real => exact (ordinary_asReal current).bind fun _ => (ordinary_asReal step).bind fun _ => .pure _

theorem ordinary_offset (index : Int64) (len : Nat) : Ordinary (offset index len) := by
  unfold offset
  split <;> simp [Fault.isOfOperation]

end Operators

namespace Library

theorem ordinary_rejected {α : Type} (function message : String) :
    Ordinary (.error (rejected function message) : Except Fault α) := (Ordinary.error_iff _).2 rfl

theorem ordinary_noArguments (function : String) (args : List Value) : Ordinary (noArguments function args) := by
  unfold noArguments
  split
  · exact .ok _
  · exact ordinary_rejected _ _

theorem ordinary_one (function : String) (args : List Value) : Ordinary (one function args) := by
  unfold one
  split
  · exact .ok _
  · exact ordinary_rejected _ _

theorem ordinary_two (function : String) (args : List Value) : Ordinary (two function args) := by
  unfold two
  split
  · exact .ok _
  · exact ordinary_rejected _ _

theorem ordinary_three (function : String) (args : List Value) : Ordinary (three function args) := by
  unfold three
  split
  · exact .ok _
  · exact ordinary_rejected _ _

theorem ordinary_textOf (v : Value) : Ordinary (textOf v) := (ordinary_asStr v).bind fun _ => .pure _

/-! ## Functions on numbers and strings -/

theorem ordinary_realFunction (function : String) (f : Float → Float) (args : List Value) :
    Ordinary (realFunction function f args) :=
  (ordinary_one _ _).bind fun a => (ordinary_toReal a).bind fun _ => .pure _

theorem ordinary_pow (args : List Value) : Ordinary (pow args) :=
  (ordinary_two _ _).bind fun p => (ordinary_toReal p.1).bind fun _ => (ordinary_toReal p.2).bind fun _ => .pure _

theorem ordinary_abs (args : List Value) : Ordinary (abs args) := by
  refine (ordinary_one _ _).bind fun a => ?_
  split
  · exact .pure _
  · exact (ordinary_toReal _).bind fun _ => .pure _

theorem ordinary_toInteger (args : List Value) : Ordinary (toInteger args) :=
  (ordinary_one _ _).bind fun a => (ordinary_asReal a).bind fun _ => .pure _

theorem ordinary_toRealFunction (args : List Value) : Ordinary (toReal args) :=
  (ordinary_one _ _).bind fun a => (ordinary_asInt a).bind fun _ => .pure _

theorem ordinary_integerFormat (args : List Value) : Ordinary (integerFormat args) :=
  (ordinary_one _ _).bind fun a => (ordinary_asInt a).bind fun _ => .pure _

theorem ordinary_hundredthsOf (function : String) (x : Float) : Ordinary (hundredthsOf function x) := by
  unfold hundredthsOf
  split
  · exact ordinary_rejected _ _
  · dsimp only
    split <;> exact .ok _

theorem ordinary_amountFormat (function mark : String) (args : List Value) :
    Ordinary (amountFormat function mark args) :=
  (ordinary_one _ _).bind fun a => (ordinary_toReal a).bind fun _ => (ordinary_hundredthsOf _ _).bind fun _ => .pure _

theorem ordinary_length (args : List Value) : Ordinary (length args) :=
  (ordinary_one _ _).bind fun a => (ordinary_asStr a).bind fun _ => .pure _

theorem ordinary_append (args : List Value) : Ordinary (append args) :=
  (ordinary_two _ _).bind fun p => (ordinary_asStr p.1).bind fun _ => (ordinary_asStr p.2).bind fun _ => .pure _

theorem ordinary_caseMap (function : String) (f : UInt8 → UInt8) (args : List Value) :
    Ordinary (caseMap function f args) :=
  (ordinary_one _ _).bind fun a => (ordinary_asStr a).bind fun _ => .pure _

theorem ordinary_substring (args : List Value) : Ordinary (substring args) := by
  refine (ordinary_three _ _).bind fun p => (ordinary_asStr p.1).bind fun s => (ordinary_asInt p.2.1).bind fun first =>
    (ordinary_asInt p.2.2).bind fun last => ?_
  split
  · exact .pure _
  · exact ordinary_rejected _ _

theorem ordinary_contains (args : List Value) : Ordinary (contains args) :=
  (ordinary_two _ _).bind fun p => (ordinary_asStr p.1).bind fun _ => (ordinary_asStr p.2).bind fun _ => .pure _

theorem ordinary_stringToInteger (args : List Value) : Ordinary (stringToInteger args) := by
  refine (ordinary_one _ _).bind fun a => (ordinary_textOf a).bind fun text => ?_
  split
  · exact .pure _
  · exact ordinary_rejected _ _

theorem ordinary_stringToReal (args : List Value) : Ordinary (stringToReal args) := by
  refine (ordinary_one _ _).bind fun a => (ordinary_textOf a).bind fun text => ?_
  split
  · exact .pure _
  · exact ordinary_rejected _ _

theorem ordinary_isInteger (args : List Value) : Ordinary (isInteger args) :=
  (ordinary_one _ _).bind fun a => (ordinary_textOf a).bind fun _ => .pure _

theorem ordinary_isReal (args : List Value) : Ordinary (isReal args) :=
  (ordinary_one _ _).bind fun a => (ordinary_textOf a).bind fun _ => .pure _

/-! ## Functions on files -/

theorem ordinary_io {α : Type} (message : String) : Ordinary (.error (.io message) : Except Fault α) :=
  (Ordinary.error_iff _).2 rfl

theorem ordinary_fileNotOpen {α : Type} : Ordinary (.error .fileNotOpen : Except Fault α) :=
  (Ordinary.error_iff _).2 rfl

theorem ordinary_openOutput (function : String) (appends : Bool) (args : List Value) (w : World) :
    Ordinary (openOutput function appends args w) := by
  refine (ordinary_one _ _).bind fun a => (ordinary_textOf a).bind fun _ => ?_
  dsimp only
  split
  · exact ordinary_io _
  · exact .pure _

theorem ordinary_openInput (args : List Value) (w : World) : Ordinary (openInput args w) := by
  refine (ordinary_one _ _).bind fun a => (ordinary_textOf a).bind fun _ => ?_
  dsimp only
  split
  · exact ordinary_io _
  · exact .pure _

theorem ordinary_stateOf (v : Value) (w : World) : Ordinary (stateOf v w) := by
  refine (ordinary_asFile v).bind fun _ => ?_
  split
  · exact .pure _
  · exact ordinary_fileNotOpen

theorem ordinary_close (args : List Value) (w : World) : Ordinary (close args w) := by
  refine (ordinary_one _ _).bind fun a => (ordinary_stateOf a w).bind fun _ => ?_
  dsimp only
  split
  · exact ordinary_fileNotOpen
  · exact .pure _

theorem ordinary_fileText (v : Value) : Ordinary (fileText v) := by
  unfold fileText
  split
  all_goals first | exact .ok _ | exact ordinary_rejected _ _

theorem ordinary_fileTexts : ∀ values : List Value, Ordinary (fileTexts values)
  | [] => .ok _
  | v :: rest => (ordinary_fileText v).bind fun _ => (ordinary_fileTexts rest).bind fun _ => .pure _

theorem ordinary_writeFile (args : List Value) (w : World) : Ordinary (writeFile args w) := by
  unfold writeFile
  split
  · exact ordinary_rejected _ _
  · refine (ordinary_fileTexts _).bind fun _ => (ordinary_stateOf _ w).bind fun _ => ?_
    dsimp only
    split
    · exact .pure _
    · exact ordinary_rejected _ _
    · exact ordinary_fileNotOpen

theorem ordinary_fill (disk : Disk) (path : Path) (offset : Nat) (ahead : Bytes) :
    Ordinary (fill disk path offset ahead) := by
  unfold fill
  split
  · exact .ok _
  · split
    · exact .ok _
    · exact ordinary_io _

theorem ordinary_takeLine (disk : Disk) (path : Path) :
    ∀ (fuel offset : Nat) (ahead : Bytes), Ordinary (takeLine disk path fuel offset ahead)
  | 0, _, _ => .ok _
  | fuel + 1, offset, ahead => by
    unfold takeLine
    refine (ordinary_fill disk path offset ahead).bind fun _ => ?_
    dsimp only
    split
    · exact .pure _
    · split
      · exact .pure _
      · exact (ordinary_takeLine disk path fuel _ _).bind fun _ => .pure _

theorem ordinary_inputState (function : String) (f : OpenFile) : Ordinary (inputState function f) := by
  unfold inputState
  split
  · exact .ok _
  · exact ordinary_rejected _ _
  · exact ordinary_fileNotOpen

theorem ordinary_nextLine (function : String) (v : Value) (w : World) : Ordinary (nextLine function v w).1 := by
  unfold nextLine
  split
  · rename_i e h
    refine (Ordinary.error_iff e).2 (Ordinary.bind (ordinary_stateOf v w) (fun p => ?_) e h)
    exact (ordinary_inputState function p.2).bind fun _ => (ordinary_takeLine _ _ _ _ _).bind fun _ => .pure _
  · dsimp only
    split
    · exact ordinary_io _
    · split
      · exact ordinary_io _
      · exact .ok _

theorem ordinary_readValue (function : String) (understand : String → Option Value) (args : List Value) (w : World) :
    Ordinary (readValue function understand args w).1 := by
  unfold readValue
  split
  · rename_i e h
    exact (Ordinary.error_iff e).2 (ordinary_one function args e h)
  · split
    · rename_i file _ _ e w' h
      have hp := ordinary_nextLine function file w
      rw [h] at hp
      exact (Ordinary.error_iff e).2 (hp e rfl)
    · split
      · exact .ok _
      · exact ordinary_rejected _ _

theorem ordinary_eof (args : List Value) (w : World) : Ordinary (eof args w) :=
  (ordinary_one _ _).bind fun a => (ordinary_stateOf a w).bind fun p => (ordinary_inputState _ p.2).bind fun _ =>
    (ordinary_fill _ _ _ _).bind fun _ => .pure _

/-! ## Calls -/

/-- A call that does not stop because of a table. -/
def ProperAct {α : Type} (a : Act α) : Prop := ∀ w s w', a w = .error s w' → s.missesTable = false

/-- A call that stops with a fault of an operation, or because it waits for ever to show its arguments. -/
def OrdinaryAct {α : Type} (args : List Value) (a : Act α) : Prop := ∀ w s w', a w = .error s w' →
  (∃ f : Fault, s = .fault f ∧ f.isOfOperation = true) ∨ s = .abort .deadlock ∧ displayAll w.heap args = none

variable {args : List Value}

theorem OrdinaryAct.proper {α : Type} {a : Act α} (ha : OrdinaryAct args a) : ProperAct a := by
  intro w s w' h
  obtain ⟨f, rfl, hf⟩ | ⟨rfl, -⟩ := ha w s w' h
  · exact Fault.missesTable_of_isPlain (Fault.isPlain_of_isOfOperation hf)
  · rfl

theorem ordinaryAct_computed {r : Except Fault Value} (hr : Ordinary r) : OrdinaryAct args (computed r) := by
  intro w s w' h
  cases r with
  | ok v => cases h
  | error f => cases h; exact .inl ⟨f, rfl, hr f rfl⟩

theorem ordinaryAct_update {f : World → Except Fault (Value × World)} (hf : ∀ w, Ordinary (f w)) :
    OrdinaryAct args (update f) := by
  intro w s w' h
  unfold update at h
  split at h
  · cases h
  · rename_i e he
    cases h
    exact .inl ⟨e, rfl, hf w e he⟩

theorem ordinaryAct_effect {f : World → Except Fault World} (hf : ∀ w, Ordinary (f w)) :
    OrdinaryAct args (effect f) := by
  intro w s w' h
  unfold effect at h
  split at h
  · cases h
  · rename_i e he
    cases h
    exact .inl ⟨e, rfl, hf w e he⟩

theorem ordinaryAct_attempt {f : World → Except Fault Value × World} (hf : ∀ w, Ordinary (f w).1) :
    OrdinaryAct args (attempt f) := by
  intro w s w' h
  unfold attempt at h
  split at h
  · cases h
  · rename_i e w₁ he
    cases h
    exact .inl ⟨e, rfl, hf w e (by rw [he])⟩

theorem ordinaryAct_display (args : List Value) : OrdinaryAct args (display args) := by
  intro w s w' h
  unfold display at h
  split at h <;> cases h
  rename_i hnone
  exact .inr ⟨rfl, hnone⟩

theorem ordinary_readLine (c : Console) : Ordinary c.readLine.1 := by
  unfold Console.readLine
  split
  · exact ordinary_io _
  · exact .ok _

theorem ordinary_askFor {α : Type} (d : Dialogue α) : ∀ (tries : Nat) (c : Console), Ordinary (d.askFor tries c).1
  | 0, _ => ordinary_io _
  | tries + 1, c => by
    unfold Dialogue.askFor
    dsimp only
    split
    · rename_i e c' h
      have hp := ordinary_readLine (c.write d.prompt)
      rw [h] at hp
      exact (Ordinary.error_iff e).2 (hp e rfl)
    · split
      · exact .ok _
      · exact ordinary_askFor d tries _

theorem ordinaryAct_ask {α : Type} (function : String) (d : Dialogue α) (value : α → Value) (args : List Value) :
    OrdinaryAct args (ask function d value args) := by
  intro w s w' h
  unfold ask at h
  split at h
  · rename_i e he
    cases h
    exact .inl ⟨e, rfl, ordinary_noArguments function args e he⟩
  · split at h
    · cases h
    · rename_i e console he
      cases h
      exact .inl ⟨e, rfl, ordinary_askFor d _ w.console e (by rw [← Dialogue.ask, he])⟩

theorem ordinaryAct_random (args : List Value) : OrdinaryAct args (random args) := by
  refine ordinaryAct_update fun w => (ordinary_two _ _).bind fun p => (ordinary_asInt p.1).bind fun low =>
    (ordinary_asInt p.2).bind fun high => ?_
  dsimp only
  split
  · exact Ordinary.bind (ordinary_rejected _ _) fun _ => .pure _
  · exact .pure _

/-- **Why a library function stops**: with a fault of an operation, or it waits for ever to show its arguments. -/
theorem call_stops (f : LibraryFunction) (args : List Value) : OrdinaryAct args (call f args) := by
  cases f <;> unfold call
  case display => exact ordinaryAct_display args
  case inputInteger | inputReal | inputString | inputCharacter | inputBoolean => exact ordinaryAct_ask _ _ _ args
  case random => exact ordinaryAct_random args
  case sqrt | cos | round | sin | tan => exact ordinaryAct_computed (ordinary_realFunction _ _ args)
  case pow => exact ordinaryAct_computed (ordinary_pow args)
  case abs => exact ordinaryAct_computed (ordinary_abs args)
  case toInteger => exact ordinaryAct_computed (ordinary_toInteger args)
  case toReal => exact ordinaryAct_computed (ordinary_toRealFunction args)
  case integerFormat => exact ordinaryAct_computed (ordinary_integerFormat args)
  case realFormat | currencyFormat => exact ordinaryAct_computed (ordinary_amountFormat _ _ args)
  case length => exact ordinaryAct_computed (ordinary_length args)
  case append => exact ordinaryAct_computed (ordinary_append args)
  case toUpper | toLower => exact ordinaryAct_computed (ordinary_caseMap _ _ args)
  case substring => exact ordinaryAct_computed (ordinary_substring args)
  case contains => exact ordinaryAct_computed (ordinary_contains args)
  case stringToInteger => exact ordinaryAct_computed (ordinary_stringToInteger args)
  case stringToReal => exact ordinaryAct_computed (ordinary_stringToReal args)
  case isInteger => exact ordinaryAct_computed (ordinary_isInteger args)
  case isReal => exact ordinaryAct_computed (ordinary_isReal args)
  case openOutputFile | openAppendFile => exact ordinaryAct_update (ordinary_openOutput _ _ args)
  case openInputFile => exact ordinaryAct_update (ordinary_openInput args)
  case closeOutputFile | closeInputFile => exact ordinaryAct_effect (ordinary_close args)
  case writeFile => exact ordinaryAct_effect (ordinary_writeFile args)
  case readInteger | readReal | readString | readCharacter | readBoolean =>
    exact ordinaryAct_attempt (ordinary_readValue _ _ args)
  case eof => exact ordinaryAct_update (ordinary_eof args)

/-- **No library function stops because of a table of the image.** -/
theorem call_missesTable (f : LibraryFunction) (args : List Value) : ProperAct (call f args) :=
  (call_stops f args).proper

end Library

end PseudoVm
