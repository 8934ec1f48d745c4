import PseudoVm.Image.Listing
import PseudoVm.Proofs.Image.WellFormed
/-!
# Image.ListingDefined: a well formed image can be listed

A listing looks up labels, scopes, classes and methods by their numbers.  In a well formed image all of them are there,
so the only thing that can keep a listing from being written is an operand that asks for more text than there can be
(`Listing.Fits`, `Image.isSome_listing`).
-/
namespace PseudoVm

namespace Listing

/-- The text of an instruction's operands is not larger than a text can be. -/
def Fits (op : Op) : Prop := ∀ dims, op = .arrayClone dims → dims * 2 ≤ Bound.block

theorem isSome_label {image : Image} {label : LabelId} (h : label < image.labels.size) :
    (image.labels[label]?).isSome := by
  rw [Array.getElem?_eq_getElem h]
  rfl

theorem isSome_methodName {image : Image} (hw : image.WellFormed) {c : Class} (hc : c ∈ image.classes) (slot : Nat) :
    (methodName image c slot).isSome := by
  unfold methodName
  split
  · rfl
  · rename_i m hm
    obtain ⟨l, -, hl, -⟩ := (hw.methods c hc m (Array.mem_of_getElem? hm)).marker
    rw [hl]
    rfl

/-- **An instruction that the image admits can be listed.** -/
theorem isSome_instruction {image : Image} (hw : image.WellFormed) {id : ScopeId} {op : Op} (ha : image.Admits id op)
    (hf : Fits op) (scope : Scope) : (instruction image scope op).isSome := by
  cases op
  case globalRef | globalVal =>
    simp only [instruction, Option.isSome_map]
    exact hw.isSome_global?
  case arrayClone dims =>
    have hd : ¬ Bound.block < dims * 2 := Nat.not_lt.2 (hf dims rfl)
    simp only [instruction, brackets, if_neg hd, Option.isSome_map, Option.isSome_some]
  case jump | jumpTrue | jumpFalse =>
    simp only [instruction, jump, Option.isSome_map]
    exact isSome_label ha
  case begin id =>
    simp only [instruction, Option.isSome_map]
    rw [Array.getElem?_eq_getElem ha]
    rfl
  case call label callee nargs =>
    obtain ⟨l, -, hl, -⟩ := ha.1.marker
    simp only [instruction, hl, Option.map_some, Option.isSome_some]
  case vcall cls slot nargs =>
    obtain ⟨c, hc, -⟩ := ha
    obtain ⟨name, hn⟩ := Option.isSome_iff_exists.1 (isSome_methodName hw (Array.mem_of_getElem? hc) slot)
    simp only [instruction, hc, hn, Option.bind_eq_bind, Option.bind_some, Option.pure_def, Option.isSome_some]
  all_goals rfl

theorem isSome_code {image : Image} (hw : image.WellFormed) (source : Option (List String)) :
    ∀ (is : List Instruction), (∀ i ∈ is, (∃ id, image.Admits id i.op) ∧ Fits i.op) → ∀ (scope : Scope) (last pc : Nat),
      (code image source scope last pc is).isSome
  | [], _, _, _, _ => rfl
  | i :: rest, h, scope, last, pc => by
    obtain ⟨⟨id, ha⟩, hf⟩ := h i List.mem_cons_self
    have hrest : ∀ inner, ∃ here after, instruction image inner i.op = some here ∧
        code image source inner i.pos.line (pc + 1) rest = some after := by
      intro inner
      obtain ⟨here, hhere⟩ := Option.isSome_iff_exists.1 (isSome_instruction hw ha hf inner)
      obtain ⟨after, hafter⟩ := Option.isSome_iff_exists.1
        (isSome_code hw source rest (fun j hj => h j (List.mem_cons_of_mem i hj)) inner i.pos.line (pc + 1))
      exact ⟨here, after, hhere, hafter⟩
    rw [code]
    split
    · rename_i marked hop
      rw [hop] at ha
      obtain ⟨inner, hinner⟩ : ∃ inner, image.scopes[marked]? = some inner := ⟨_, Array.getElem?_eq_getElem ha⟩
      obtain ⟨here, after, hhere, hafter⟩ := hrest inner
      rw [hop] at hhere
      rw [hinner]
      simp only [Option.bind_eq_bind, Option.bind_some, hop, hhere, hafter, Option.pure_def, Option.isSome_some]
    · obtain ⟨here, after, hhere, hafter⟩ := hrest scope
      simp only [Option.bind_eq_bind, Option.bind_some, hhere, hafter, Option.pure_def, Option.isSome_some]

theorem isSome_classes {image : Image} (hw : image.WellFormed) : (classes image).isSome := by
  have hrow : ∀ c ∈ image.classes.toList, (classRow image c).isSome := by
    intro c hc
    have hm : (c.methods.toList.mapM fun m => image.labels[m.label]?.map (·.name)).isSome := isSome_mapM fun m hm => by
      obtain ⟨l, -, hl, -⟩ := (hw.methods c (by simpa using hc) m (by simpa using hm)).marker
      rw [hl]
      rfl
    obtain ⟨names, hnames⟩ := Option.isSome_iff_exists.1 hm
    simp only [classRow, hnames, Option.bind_eq_bind, Option.bind_some, Option.pure_def, Option.isSome_some]
  unfold classes
  split
  · rfl
  · obtain ⟨rows, hrows⟩ := Option.isSome_iff_exists.1 (isSome_mapM hrow)
    simp only [hrows, Option.bind_eq_bind, Option.bind_some, Option.pure_def, Option.isSome_some]

end Listing

/-- **A well formed image has a listing**, unless an operand asks for more text than there can be. -/
theorem Image.isSome_listing {image : Image} (hw : image.WellFormed) (hf : ∀ i ∈ image.code, Listing.Fits i.op)
    (source : Option String) : (image.listing source).isSome := by
  obtain ⟨g, hg⟩ := Option.isSome_iff_exists.1 hw.isSome_global?
  have hcode : ∀ i ∈ image.code.toList, (∃ id, image.Admits id i.op) ∧ Listing.Fits i.op := by
    intro i hi
    rw [Array.mem_toList_iff] at hi
    obtain ⟨pc, hpc⟩ := Array.getElem?_of_mem hi
    exact ⟨⟨_, hw.code pc i hpc⟩, hf i hi⟩
  obtain ⟨code, hc⟩ := Option.isSome_iff_exists.1
    (Listing.isSome_code hw (source.map lines) image.code.toList hcode g 0 0)
  obtain ⟨classes, hk⟩ := Option.isSome_iff_exists.1 (Listing.isSome_classes hw)
  simp only [Image.listing, hg, hc, hk, Option.bind_eq_bind, Option.bind_some, Option.pure_def, Option.isSome_some]

end PseudoVm
