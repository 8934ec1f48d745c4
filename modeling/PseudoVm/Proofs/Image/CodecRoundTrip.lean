import Mathlib
import PseudoVm.Image.Codec
/-!
# Image.CodecRoundTrip: an image is what its encoding decodes to

Every part of an image is decoded to what it was encoded from, as long as its numbers fit a word, which the machine's
own numbers do, and its reals are numbers.  A real that is none is encoded as `null`, no instruction reads that, and
one instruction that is not understood makes the whole image malformed: so an image with such a real is never taken for
another one (`Image.codec_round_trip`).
-/
namespace PseudoVm

open Codec

namespace Codec

/-- Whether a real is a number. -/
def isNumber (x : Float) : Bool := !(x.isNaN || x.isInf)

theorem nat?_ofNat {n : Nat} (h : n < Bound.word) : nat? (ofNat n) = some n := by
  have hn : (n : Int) < Bound.word := Int.ofNat_lt.2 h
  simp [nat?, ofNat, hn]

theorem int?_toInt (n : Int64) : int? (.int n.toInt) = some n := by
  have hlow := n.le_toInt
  have hhigh := n.toInt_lt
  have hb : -(Bound.int : Int) ≤ n.toInt ∧ n.toInt < Bound.int := by simp [Bound.int]; omega
  simp [int?, hb]

theorem byte?_ofNat (c : UInt8) : byte? (ofNat c.toNat) = some c := by
  have hc : (c.toNat : Int) < 256 := Int.ofNat_lt.2 c.toNat_lt
  simp [byte?, ofNat, hc]

theorem real?_ofReal (x : Float) : real? (ofReal x) = if isNumber x then some x else none := by
  unfold ofReal isNumber
  cases h : x.isNaN || x.isInf with
  | true => rfl
  | false =>
    have hreal : real? (.real x) = if x.isNaN || x.isInf then none else some x := rfl
    rw [if_neg Bool.false_ne_true, hreal, h]
    rfl

theorem ofReal_eq_null {x : Float} (h : isNumber x = false) : ofReal x = .null := by
  unfold isNumber at h
  unfold ofReal
  rw [Bool.not_eq_false'] at h
  rw [h]
  rfl

theorem mapM_map {α : Type} {enc : α → Json} {dec : Json → Option α} :
    ∀ {xs : List α}, (∀ x ∈ xs, dec (enc x) = some x) → (xs.map enc).mapM dec = some xs
  | [], _ => rfl
  | x :: xs, h => by
    have hx := h x List.mem_cons_self
    have hxs := mapM_map fun y hy => h y (List.mem_cons_of_mem x hy)
    simp [hx, hxs]

theorem mapM_eq_none {α β : Type} {f : α → Option β} {x : α} (hx : f x = none) :
    ∀ {xs : List α}, x ∈ xs → xs.mapM f = none
  | y :: ys, h => by
    rcases List.mem_cons.1 h with rfl | h
    · simp [hx]
    · cases hy : f y with
      | none => simp [hy]
      | some b => simp [hy, mapM_eq_none hx h]

theorem list?_map {α : Type} {enc : α → Json} {dec : Json → Option α} {xs : List α}
    (h : ∀ x ∈ xs, dec (enc x) = some x) : list? dec (.arr (xs.map enc)) = some xs := mapM_map h

theorem list?_ofTexts (texts : List String) : list? text? (ofTexts texts) = some texts := list?_map fun _ _ => rfl

theorem need_eq {α : Type} {item? : Json → Option α} {v : Json} {r : Option α} (h : item? v = r) :
    need item? (some v) = r := h

theorem orElse_eq {α : Type} {item? : Json → Option α} {default : α} {v : Json} {r : Option α} (h : item? v = r) :
    orElse item? default (some v) = r := h

theorem record?_obj (members : List (String × Json)) (hd : (members.map Prod.fst).Nodup) :
    (Json.obj members).record? (members.map Prod.fst) = some (members.map fun p => some p.2) := by
  have hcount : ∀ name, members.countP (·.1 == name) ≤ 1 := by
    intro name
    have h := List.nodup_iff_count.1 hd name
    rw [List.count, List.countP_map] at h
    exact h
  have hlookup : ∀ p ∈ members, members.lookup p.1 = some p.2 := by
    clear hcount
    induction members with
    | nil => intro p hp; cases hp
    | cons q rest ih =>
      obtain ⟨hq, hrest⟩ := List.nodup_cons.1 hd
      intro p hp
      rcases List.mem_cons.1 hp with rfl | hp
      · exact List.lookup_cons_self
      · have hne : (p.1 == q.1) = false := beq_eq_false_iff_ne.2 fun he => hq (he ▸ List.mem_map_of_mem hp)
        rw [List.lookup, hne]
        exact ih hrest p hp
  have hall : (members.map Prod.fst).all (fun name => members.countP (·.1 == name) ≤ 1) = true := by
    simp only [List.all_eq_true, decide_eq_true_eq]
    exact fun name _ => hcount name
  simp only [Json.record?, if_pos hall, List.map_map, Option.some.injEq]
  exact List.map_congr_left hlookup

theorem operands?_obj (members : List (String × Json)) (hd : (members.map Prod.fst).Nodup) :
    operands? (members.map Prod.fst) (.obj members) = (members.map Prod.snd).mapM nat? := by
  simp only [operands?, record?_obj members hd, Option.bind_eq_bind, Option.bind_some]
  induction members with
  | nil => rfl
  | cons p rest ih =>
    have hp : need nat? (some p.2) = nat? p.2 := rfl
    simp only [List.map_cons, List.mapM_cons, hp, ih (List.nodup_cons.1 hd).2]

end Codec

/-! ## Instructions -/

theorem BinaryOp.decode?_encode (op : BinaryOp) : decode? op.encode = some op := by cases op <;> rfl

theorem UnaryOp.decode?_encode (op : UnaryOp) : decode? op.encode = some op := by cases op <;> rfl

theorem Container.decode?_encode (kind : Container) : decode? kind.encode = some kind := by cases kind <;> rfl

theorem Counter.decode?_encode (kind : Counter) : decode? kind.encode = some kind := by cases kind <;> rfl

namespace Op

/-- The numbers among an instruction's operands: indices, counts and sizes. -/
def numbers : Op → List Nat
  | .litStr n | .globalRef n | .globalVal n | .localRef n | .localVal n | .paramRef n | .paramVal n | .paramPtr n
  | .fieldRef n | .fieldVal n | .arrayNew n | .arrayClone n | .jump n | .jumpTrue n | .jumpFalse n | .begin n | .ret n
  | .halt n => [n]
  | .objNew cls nfields => [cls, nfields]
  | .call label scope nargs => [label, scope, nargs]
  | .vcall cls slot nargs => [cls, slot, nargs]
  | .libCall index nargs => [index, nargs]
  | _ => []

/-- The reals among an instruction's operands. -/
def reals : Op → List Float
  | .litReal x | .incrReal x => [x]
  | _ => []

theorem decode?_data {name : String} {data : Json} (h : data ≠ .null) :
    decode? (.obj [(name, data)]) = dataOp? name data := by
  cases data <;> first | rfl | exact absurd rfl h

/-- **An instruction is what its encoding decodes to.** -/
theorem decode?_encode {op : Op} (hn : ∀ n ∈ op.numbers, n < Bound.word) (hr : ∀ x ∈ op.reals, isNumber x = true) :
    decode? op.encode = some op := by
  have hnat : ∀ n ∈ op.numbers, nat? (ofNat n) = some n := fun n h => nat?_ofNat (hn n h)
  cases op with
  | store | storeChar | deref | intToReal | realToInt | arrayLen | finish | dup | pop | litBool => rfl
  | litInt n | incrInt n =>
    rw [encode, decode?_data Json.noConfusion]
    unfold dataOp?
    simp only [int?_toInt, Option.map_some]
  | litReal x | incrReal x =>
    have hx := hr x (List.mem_singleton_self x)
    have hne : ofReal x ≠ .null := by
      intro he
      have hreal := real?_ofReal x
      rw [he, hx] at hreal
      cases hreal
    rw [encode, decode?_data hne]
    unfold dataOp?
    simp only [real?_ofReal, hx, if_true, Option.map_some]
  | litChar c =>
    rw [encode, decode?_data Json.noConfusion]
    unfold dataOp?
    simp only [byte?_ofNat, Option.map_some]
  | litStr n | globalRef n | globalVal n | localRef n | localVal n | paramRef n | paramVal n | paramPtr n | fieldRef n
  | fieldVal n | jump n | jumpTrue n | jumpFalse n =>
    have hn := hnat n (List.mem_singleton_self n)
    rw [encode, decode?_data Json.noConfusion]
    unfold dataOp?
    simp only [hn, Option.map_some]
  | binInt b | binReal b | binStr b | binChar b | binBool b =>
    have hne : b.encode ≠ .null := by cases b <;> exact Json.noConfusion
    rw [encode, decode?_data hne]
    unfold dataOp?
    simp only [b.decode?_encode, Option.map_some]
  | unInt u | unReal u | unBool u =>
    have hne : u.encode ≠ .null := by cases u <;> exact Json.noConfusion
    rw [encode, decode?_data hne]
    unfold dataOp?
    simp only [u.decode?_encode, Option.map_some]
  | forInit k | forStep k =>
    have hne : k.encode ≠ .null := by cases k <;> exact Json.noConfusion
    rw [encode, decode?_data hne]
    unfold dataOp?
    simp only [k.decode?_encode, Option.map_some]
  | offsetRef k | offsetVal k =>
    have hne : k.encode ≠ .null := by cases k <;> exact Json.noConfusion
    rw [encode, decode?_data hne]
    unfold dataOp?
    simp only [k.decode?_encode, Option.map_some]
  | arrayNew n | arrayClone n | begin n | ret n | halt n =>
    have hn := hnat n (List.mem_singleton_self n)
    have ho := fun name => operands?_obj [(name, ofNat n)] (by simp)
    rw [encode, decode?_data Json.noConfusion]
    unfold dataOp?
    simp only [List.map_cons, List.map_nil] at ho
    simp [ho, hn]
  | objNew a b | libCall a b =>
    have ha := hnat a (by simp [numbers])
    have hb := hnat b (by simp [numbers])
    have ho := fun name name' (h : name ≠ name') => operands?_obj [(name, ofNat a), (name', ofNat b)]
      (by simpa using h)
    rw [encode, decode?_data Json.noConfusion]
    unfold dataOp?
    simp only [List.map_cons, List.map_nil] at ho
    simp [ho, ha, hb]
  | call a b c | vcall a b c =>
    have ha := hnat a (by simp [numbers])
    have hb := hnat b (by simp [numbers])
    have hc := hnat c (by simp [numbers])
    have ho := fun x y z (h : [x, y, z].Nodup) =>
      operands?_obj [(x, ofNat a), (y, ofNat b), (z, ofNat c)] h
    rw [encode, decode?_data Json.noConfusion]
    unfold dataOp?
    simp only [List.map_cons, List.map_nil] at ho
    simp [ho, ha, hb, hc]

/-- **An instruction with a real that is no number cannot be read.** -/
theorem decode?_encode_eq_none {op : Op} {x : Float} (hx : x ∈ op.reals) (hn : isNumber x = false) :
    decode? op.encode = none := by
  have hnull := ofReal_eq_null hn
  cases op with
  | litReal y | incrReal y =>
    obtain rfl := List.mem_singleton.1 hx
    rw [encode, hnull]
    rfl
  | _ => cases hx

end Op

/-! ## Images -/

/-- The numbers of an instruction and of its position. -/
def Instruction.numbers (i : Instruction) : List Nat := i.pos.line :: i.pos.column :: i.op.numbers

/-- The numbers of a virtual method. -/
def Method.numbers (m : Method) : List Nat := [m.label, m.scope]

theorem SourcePos.decode?_encode {p : SourcePos} (hl : p.line < Bound.word) (hc : p.column < Bound.word) :
    decode? p.encode = some p := by
  have hrec : p.encode.record? ["line", "column"] = some [some (ofNat p.line), some (ofNat p.column)] :=
    record?_obj [("line", ofNat p.line), ("column", ofNat p.column)] (by simp)
  simp [decode?, hrec, need_eq (nat?_ofNat hl), need_eq (nat?_ofNat hc)]

theorem Instruction.record?_encode (i : Instruction) :
    i.encode.record? ["pos", "op"] = some [some i.pos.encode, some i.op.encode] :=
  record?_obj [("pos", i.pos.encode), ("op", i.op.encode)] (by simp)

theorem Instruction.decode?_encode {i : Instruction} (hn : ∀ n ∈ i.numbers, n < Bound.word)
    (hr : ∀ x ∈ i.op.reals, isNumber x = true) : decode? i.encode = some i := by
  have hpos : SourcePos.decode? i.pos.encode = some i.pos :=
    SourcePos.decode?_encode (hn _ (by simp [numbers])) (hn _ (by simp [numbers]))
  have hop : Op.decode? i.op.encode = some i.op :=
    Op.decode?_encode (fun n h => hn n (by simp [numbers, h])) hr
  simp [decode?, i.record?_encode, need_eq hpos, need_eq hop]

theorem Instruction.decode?_encode_eq_none {i : Instruction} {x : Float} (hx : x ∈ i.op.reals)
    (hn : isNumber x = false) : decode? i.encode = none := by
  have hop := Op.decode?_encode_eq_none hx hn
  simp [decode?, i.record?_encode, need_eq hop]

theorem Label.decode?_encode {l : Label} (h : l.pc < Bound.word) : decode? l.encode = some l := by
  have hrec : l.encode.record? ["name", "pc"] = some [some (.str l.name), some (ofNat l.pc)] :=
    record?_obj [("name", .str l.name), ("pc", ofNat l.pc)] (by simp)
  have hname : need text? (some (.str l.name)) = some l.name := rfl
  simp [decode?, hrec, hname, need_eq (nat?_ofNat h)]

theorem Method.decode?_encode {m : Method} (h : ∀ n ∈ m.numbers, n < Bound.word) : decode? m.encode = some m := by
  have hrec : m.encode.record? ["label", "scope"] = some [some (ofNat m.label), some (ofNat m.scope)] :=
    record?_obj [("label", ofNat m.label), ("scope", ofNat m.scope)] (by simp)
  have hl := nat?_ofNat (h m.label (by simp [numbers]))
  have hs := nat?_ofNat (h m.scope (by simp [numbers]))
  simp [decode?, hrec, need_eq hl, need_eq hs]

theorem Class.decode?_encode {c : Class} (h : ∀ m ∈ c.methods, ∀ n ∈ m.numbers, n < Bound.word) :
    decode? c.encode = some c := by
  have hrec : c.encode.record? ["name", "fields", "vtable"] = some [some (.str c.name), some (ofTexts c.fields),
      some (.arr (c.methods.toList.map Method.encode))] :=
    record?_obj [("name", .str c.name), ("fields", ofTexts c.fields),
      ("vtable", .arr (c.methods.toList.map Method.encode))] (by simp)
  have hname : need text? (some (.str c.name)) = some c.name := rfl
  have hm : list? Method.decode? (.arr (c.methods.toList.map Method.encode)) = some c.methods.toList :=
    list?_map fun m hm => Method.decode?_encode (h m (Array.mem_toList_iff.1 hm))
  simp [decode?, hrec, hname, orElse_eq (list?_ofTexts c.fields), orElse_eq hm]

theorem Scope.decode?_encode (s : Scope) : decode? s.encode = some s := by
  have hrec : s.encode.record? ["name", "is_global", "params", "locals"] =
      some [some (.str s.name), some (.bool s.isGlobal), some (ofTexts s.params), some (ofTexts s.locals)] :=
    record?_obj [("name", .str s.name), ("is_global", .bool s.isGlobal),
      ("params", ofTexts s.params), ("locals", ofTexts s.locals)] (by simp)
  have hname : need text? (some (.str s.name)) = some s.name := rfl
  have hglobal : orElse bool? false (some (.bool s.isGlobal)) = some s.isGlobal := rfl
  simp [decode?, hrec, hname, hglobal, orElse_eq (list?_ofTexts s.params), orElse_eq (list?_ofTexts s.locals)]

namespace Image

/-- Every number of an image fits a word. -/
structure InWords (image : Image) : Prop where
  code : ∀ i ∈ image.code, ∀ n ∈ i.numbers, n < Bound.word
  labels : ∀ l ∈ image.labels, l.pc < Bound.word
  methods : ∀ c ∈ image.classes, ∀ m ∈ c.methods, ∀ n ∈ m.numbers, n < Bound.word
  globalScope : image.globalScope < Bound.word

/-- Whether every real of an image is a number. -/
def hasNumbers (image : Image) : Bool := image.code.toList.all fun i => i.op.reals.all isNumber

theorem record?_encode (image : Image) :
    image.encode.record? ["code", "labels", "strings", "classes", "scopes", "global_scope"] =
      some [some (.arr (image.code.toList.map Instruction.encode)), some (.arr (image.labels.toList.map Label.encode)),
        some (ofTexts image.strings.toList), some (.arr (image.classes.toList.map Class.encode)),
        some (.arr (image.scopes.toList.map Scope.encode)), some (ofNat image.globalScope)] :=
  record?_obj [("code", .arr (image.code.toList.map Instruction.encode)),
    ("labels", .arr (image.labels.toList.map Label.encode)), ("strings", ofTexts image.strings.toList),
    ("classes", .arr (image.classes.toList.map Class.encode)), ("scopes", .arr (image.scopes.toList.map Scope.encode)),
    ("global_scope", ofNat image.globalScope)] (by simp)

theorem decode?_encode {image : Image} (hw : image.InWords) (hr : image.hasNumbers = true) :
    decode? image.encode = some image := by
  have hcode : list? Instruction.decode? (.arr (image.code.toList.map Instruction.encode)) =
      some image.code.toList := by
    refine list?_map fun i hi => ?_
    have hreal : ∀ x ∈ i.op.reals, isNumber x = true := List.all_eq_true.1 (List.all_eq_true.1 hr i hi)
    exact Instruction.decode?_encode (hw.code i (Array.mem_toList_iff.1 hi)) hreal
  have hlabels : list? Label.decode? (.arr (image.labels.toList.map Label.encode)) = some image.labels.toList :=
    list?_map fun l hl => Label.decode?_encode (hw.labels l (Array.mem_toList_iff.1 hl))
  have hclasses : list? Class.decode? (.arr (image.classes.toList.map Class.encode)) = some image.classes.toList :=
    list?_map fun c hc => Class.decode?_encode (hw.methods c (Array.mem_toList_iff.1 hc))
  have hscopes : list? Scope.decode? (.arr (image.scopes.toList.map Scope.encode)) = some image.scopes.toList :=
    list?_map fun s _ => s.decode?_encode
  simp [decode?, image.record?_encode, need_eq hcode, need_eq hlabels, orElse_eq (list?_ofTexts image.strings.toList),
    orElse_eq hclasses, need_eq hscopes, need_eq (nat?_ofNat hw.globalScope)]

theorem decode?_encode_eq_none {image : Image} (hr : image.hasNumbers = false) : decode? image.encode = none := by
  obtain ⟨i, hi, hall⟩ := List.all_eq_false.1 hr
  obtain ⟨x, hx, hn⟩ := List.all_eq_false.1 (Bool.eq_false_iff.2 hall)
  have hnone : Instruction.decode? i.encode = none := Instruction.decode?_encode_eq_none hx (Bool.eq_false_iff.2 hn)
  have hcode : list? Instruction.decode? (.arr (image.code.toList.map Instruction.encode)) = none :=
    mapM_eq_none hnone (List.mem_map_of_mem hi)
  simp [decode?, image.record?_encode, need_eq hcode]

theorem envelope?_eq {v assembly : Json} {version : Nat}
    (hv : v.record? ["version", "assembly"] = some [some (ofNat version), some assembly])
    (hlt : version < Bound.halfWord) : envelope? v = (decode? assembly).map fun image => (version, image) := by
  have hword : version < Bound.word := Nat.lt_trans hlt (by decide)
  have hver := need_eq (nat?_ofNat hword)
  cases hd : decode? assembly with
  | none => simp [envelope?, hv, hver, need_eq hd]
  | some image => simp [envelope?, hv, hver, guard, hlt, need_eq hd]

theorem record?_toEnvelope (image : Image) :
    image.toEnvelope.record? ["version", "assembly"] = some [some (ofNat formatVersion), some image.encode] :=
  record?_obj [("version", ofNat formatVersion), ("assembly", image.encode)] (by simp)

theorem ofEnvelope_eq {v assembly : Json} {version : Nat}
    (hv : v.record? ["version", "assembly"] = some [some (ofNat version), some assembly])
    (hlt : version < Bound.halfWord) : ofEnvelope v = match decode? assembly with
      | none => .error .malformed
      | some image => if version = formatVersion then .ok image else .error (.versionMismatch version) := by
  rw [ofEnvelope, envelope?_eq hv hlt]
  cases decode? assembly <;> rfl

/-- **Images survive their encoding.**  An image whose reals are numbers is read back as it was written; one with a
real that is none is malformed and never another image.  An envelope, in whatever form a record can have, that holds
an image and a version of 32 bits other than that of this format is refused for its version. -/
theorem codec_round_trip (image : Image) (hw : image.InWords) :
    (image.hasNumbers = true → ofEnvelope image.toEnvelope = .ok image) ∧
    (image.hasNumbers = false → ofEnvelope image.toEnvelope = .error .malformed) ∧
    ∀ (v assembly : Json) (version : Nat),
      v.record? ["version", "assembly"] = some [some (ofNat version), some assembly] →
      (decode? assembly).isSome = true → version < Bound.halfWord → version ≠ formatVersion →
        ofEnvelope v = .error (.versionMismatch version) := by
  have heq := ofEnvelope_eq image.record?_toEnvelope (by decide)
  refine ⟨fun hr => ?_, fun hr => ?_, fun v assembly version hv hd hlt hne => ?_⟩
  · rw [heq, decode?_encode hw hr]
    rfl
  · rw [heq, decode?_encode_eq_none hr]
  · obtain ⟨other, hother⟩ := Option.isSome_iff_exists.1 hd
    rw [ofEnvelope_eq hv hlt, hother]
    exact if_neg hne

/-- A program of one instruction of each form that adds to a real in a class's field. -/
def adding (x : Float) : Image where
  code := #[⟨⟨1, 1⟩, .objNew 0 1⟩, ⟨⟨1, 3⟩, .fieldRef 0⟩, ⟨⟨1, 5⟩, .incrReal x⟩, ⟨⟨2, 1⟩, .binReal .add⟩,
    ⟨⟨2, 7⟩, .finish⟩]
  labels := #[⟨"start", 0⟩]
  strings := #["sum"]
  classes := #[⟨"cell", ["value"], #[⟨0, 0⟩]⟩]
  scopes := #[.global ["total"]]
  globalScope := 0

theorem inWords_adding (x : Float) : (adding x).InWords where
  code := by simp [adding, Instruction.numbers, Op.numbers, Bound.word]
  labels := by simp [adding, Bound.word]
  methods := by simp [adding, Method.numbers, Bound.word]
  globalScope := show 0 < Bound.word by decide

/-- A real of it that is a number survives and one that is none is malformed; a list of a version and the image is an
envelope too. -/
theorem codec_round_trip_adding :
    ofEnvelope (adding 0.5).toEnvelope = .ok (adding 0.5) ∧
    ofEnvelope (adding (0.0 / 0.0)).toEnvelope = .error .malformed ∧
    ofEnvelope (.arr [ofNat 2, (adding 0.5).encode]) = .error (.versionMismatch 2) := by
  have hnum : (adding 0.5).hasNumbers = true := by decide
  have hnan : (adding (0.0 / 0.0)).hasNumbers = false := by decide
  obtain ⟨hsame, -, hversion⟩ := codec_round_trip (adding 0.5) (inWords_adding _)
  obtain ⟨-, hmalformed, -⟩ := codec_round_trip (adding (0.0 / 0.0)) (inWords_adding _)
  have hsome : (decode? (adding 0.5).encode).isSome = true := by rw [decode?_encode (inWords_adding _) hnum]; rfl
  exact ⟨hsame hnum, hmalformed hnan, hversion _ _ 2 rfl hsome (by decide) (by decide)⟩

end Image

end PseudoVm
