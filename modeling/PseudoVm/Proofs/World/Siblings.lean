import Mathlib.Data.List.TakeDrop
import PseudoVm.Proofs.World.DiskWrites
/-!
# World.Siblings: files that lie beside each other

A path text is what leads to a directory and, behind its last slash, a name (`exists_leading`).  Another ending of the
name leaves the rest of the text as it is (`withEnding_leading`), so the paths lead to one directory and differ in the
last name alone (`Disk.walk_leading`).  Only a name that is a dot and an ending has no sibling: what is left of it leads
up, to a directory (`Disk.Hosts.node?_above`).
-/
namespace PseudoVm

namespace PathName

/-- A text that a name can be put behind. -/
def Leading (dir : String) : Prop := dir = "" ∨ ∃ before, dir = before ++ "/"

/-- A name that stands for something in the directory it is looked up in. -/
structure Plain (name : String) : Prop where
  noSlash : '/' ∉ name.toList
  notEmpty : name ≠ ""
  notHere : name ≠ "."
  notUp : name ≠ ".."

variable {dir name : String}

theorem exists_leading (path : String) : ∃ dir name, path = dir ++ name ∧ Leading dir ∧ '/' ∉ name.toList := by
  let behind := path.toList.reverse.takeWhile (· != '/')
  have hbehind : '/' ∉ behind := by
    intro hmem
    have hne := List.all_eq_true.1 List.all_takeWhile '/' hmem
    simp at hne
  have hpath : (path.toList.reverse.dropWhile (· != '/')).reverse ++ behind.reverse = path.toList := by
    rw [← List.reverse_append, List.takeWhile_append_dropWhile, List.reverse_reverse]
  have hhead := List.head?_dropWhile_not (· != '/') path.toList.reverse
  cases hd : path.toList.reverse.dropWhile (· != '/') with
  | nil =>
    rw [hd] at hpath
    refine ⟨"", path, by simp, .inl rfl, ?_⟩
    rw [← hpath]
    simpa using hbehind
  | cons slash before =>
    rw [hd] at hpath hhead
    have hslash : slash = '/' := by simpa using hhead
    refine ⟨String.ofList (before.reverse ++ ['/']), String.ofList behind.reverse, ?_,
      .inr ⟨String.ofList before.reverse, ?_⟩, ?_⟩
    · rw [← String.ofList_append, ← String.toList_inj, String.toList_ofList, ← hpath, hslash, List.reverse_cons]
    · exact String.ofList_append
    · simpa using hbehind

theorem split_leading (hd : Leading dir) (hn : '/' ∉ name.toList) :
    split (dir ++ name) = (split dir).dropLast ++ [name] := by
  obtain rfl | ⟨before, rfl⟩ := hd
  · simp [split, List.splitOn_eq_singleton hn]
  · have hslash : "/".toList = ['/'] := rfl
    simp only [split, String.toList_append, hslash, List.append_assoc, List.cons_append, List.nil_append,
      List.splitOn_append_cons_self, List.splitOn_eq_singleton hn, List.splitOn_nil, List.map_append, List.map_cons,
      List.map_nil, List.dropLast_concat, String.ofList_toList]

theorem intercalate_split (path : String) : String.intercalate "/" (split path) = path := by
  have hpieces : (split path).map String.toList = path.toList.splitOn '/' := by
    unfold split
    rw [List.map_map]
    exact List.map_id'' (fun cs => String.toList_ofList) _
  rw [← String.toList_inj, String.toList_intercalate, hpieces]
  exact List.intercalate_splitOn '/'

theorem isIdle_eq_false (h : Plain name) : isIdle name = false := by
  simp [isIdle, h.notEmpty, h.notHere]

theorem names_leading (hd : Leading dir) (hn : '/' ∉ name.toList) (hidle : isIdle name = false) :
    names (dir ++ name) = name :: (split dir).dropLast.reverse := by
  unfold names
  rw [split_leading hd hn, List.reverse_append, List.reverse_cons, List.reverse_nil, List.nil_append, List.cons_append,
    List.nil_append]
  cases (split dir).dropLast.reverse with
  | nil => rfl
  | cons before rest => simp [settle, hidle]

theorem fileName?_leading (hd : Leading dir) (hn : Plain name) : fileName? (dir ++ name) = some name := by
  unfold fileName?
  rw [names_leading hd hn.noSlash (isIdle_eq_false hn)]
  exact if_neg (by simp [hn.notEmpty, hn.notHere, hn.notUp])

theorem splitEnding_dot {base ending : String} (hb : base ≠ "") (he : '.' ∉ ending.toList) :
    splitEnding (base ++ "." ++ ending) = (base, ending) := by
  have hbase : base.toList ≠ [] := by simpa using hb
  have hdot : ".".toList = ['.'] := rfl
  have hrev : (base ++ "." ++ ending).toList.reverse = ending.toList.reverse ++ '.' :: base.toList.reverse := by
    simp [String.toList_append, hdot]
  have hall : ∀ c ∈ ending.toList.reverse, (c != '.') = true := by
    intro c hc
    have hne : c ≠ '.' := fun heq => he (heq ▸ List.mem_reverse.1 hc)
    simpa using hne
  unfold splitEnding
  rw [hrev, List.span_eq_takeWhile_dropWhile, List.takeWhile_append_of_pos hall, List.dropWhile_append_of_pos hall]
  obtain ⟨c, rest, hcons⟩ := List.exists_cons_of_ne_nil (List.reverse_ne_nil_iff.2 hbase)
  have hback : base = String.ofList (c :: rest).reverse := by
    rw [← hcons, List.reverse_reverse, String.ofList_toList]
  rw [hcons]
  simp [hback]

theorem setEnding_leading {ending : String} (hd : Leading dir) (hn : Plain name)
    (hs : '/' ∉ (stem name ++ "." ++ ending).toList) :
    setEnding (dir ++ name) ending = dir ++ (stem name ++ "." ++ ending) := by
  unfold setEnding
  rw [names_leading hd hn.noSlash (isIdle_eq_false hn)]
  refine (if_neg ?_).trans ?_
  · rw [fileName?_leading hd hn]
    simp
  · rw [List.reverse_cons, List.reverse_reverse, ← split_leading hd hs, intercalate_split]

theorem cutEnding_append {kept base ending : String} (hname : fileName? (kept ++ ending) = some name)
    (hsplit : splitEnding name = (base, ending)) : cutEnding (kept ++ ending) = kept := by
  have hlen : (kept ++ ending).length - ending.length = kept.toList.length := by
    rw [String.length_append, Nat.add_sub_cancel, String.length_toList]
  unfold cutEnding
  rw [hname, Option.map_some, Option.map_some, hsplit, Option.getD_some]
  dsimp only
  rw [hlen, String.toList_append, List.take_left, String.ofList_toList]

/-! ## Siblings of an image -/

theorem plain_of_length (hs : '/' ∉ name.toList) (hl : 2 < name.length) : Plain name := by
  refine ⟨hs, ?_, ?_, ?_⟩
  all_goals
    rintro rfl
    revert hl
    decide

theorem plain_image {base : String} (hb : '/' ∉ base.toList) : Plain (base ++ ".json") := by
  have hjson : ".json".toList = ['.', 'j', 's', 'o', 'n'] := rfl
  have hfive : ".json".length = 5 := rfl
  refine plain_of_length (by simp [String.toList_append, hjson, hb]) ?_
  rw [String.length_append, hfive]
  omega

theorem plain_dot {base : String} (hb : '/' ∉ base.toList) (hempty : base ≠ "") (hdot : base ≠ ".") :
    Plain (base ++ ".") := by
  have htail : ∀ {cs : List Char}, base ++ "." = String.ofList (cs ++ ['.']) → base.toList = cs := by
    intro cs h
    rw [← String.toList_inj, String.toList_ofList, String.toList_append] at h
    exact List.append_cancel_right h
  refine ⟨by simp [String.toList_append, hb], ?_, fun h => ?_, fun h => ?_⟩
  · simp
  · have hcs : base.toList = [] := htail h
    exact hempty (String.toList_inj.1 hcs)
  · have hcs : base.toList = ['.'] := htail h
    exact hdot (String.toList_inj.1 hcs)

/-- What the siblings of an image are called, short of their endings.  A name that is nothing but an ending has none. -/
def stemOfImage (base : String) : String := if base = "" then ".json" else base

theorem plain_sibling {base ending : String} (hb : '/' ∉ base.toList) (he : '/' ∉ ending.toList)
    (hlen : 2 ≤ ending.length) : Plain (stemOfImage base ++ "." ++ ending) := by
  have hjson : ".json".toList = ['.', 'j', 's', 'o', 'n'] := rfl
  have hdot : ".".toList = ['.'] := rfl
  have hstem : '/' ∉ (stemOfImage base).toList := by
    unfold stemOfImage
    by_cases hempty : base = ""
    · rw [if_pos hempty, hjson]
      decide
    · rw [if_neg hempty]
      exact hb
  have hone : 0 < (stemOfImage base).length := by
    unfold stemOfImage
    by_cases hempty : base = ""
    · rw [if_pos hempty]
      decide
    · rw [if_neg hempty]
      exact Nat.pos_of_ne_zero (by simpa using hempty)
  refine plain_of_length (by simp [String.toList_append, hdot, hstem, he]) ?_
  have hdotlen : ".".length = 1 := rfl
  rw [String.length_append, String.length_append, hdotlen]
  omega

/-- **The sibling of an image has another ending and the same directory**, unless the image is called `..json`. -/
theorem withEnding_image {base ending : String} (hd : Leading dir) (hb : '/' ∉ base.toList) (hdot : base ≠ ".")
    (he : '/' ∉ ending.toList) (hlen : 2 ≤ ending.length) :
    withEnding (dir ++ (base ++ ".json")) ending = dir ++ (stemOfImage base ++ "." ++ ending) := by
  have hsibling := (plain_sibling hb he hlen).noSlash
  unfold withEnding stemOfImage at *
  by_cases hempty : base = ""
  · rw [if_pos hempty] at hsibling ⊢
    rw [hempty, String.empty_append]
    have hplain : Plain ".json" := @plain_image "" (by simp)
    have hstem : stem ".json" = ".json" := by decide
    have hsplit : splitEnding ".json" = (".json", "") := by decide
    have hcut : cutEnding (dir ++ ".json" ++ "") = dir ++ ".json" :=
      cutEnding_append (by rw [String.append_empty, fileName?_leading hd hplain]) hsplit
    rw [String.append_empty] at hcut
    rw [hcut, setEnding_leading hd hplain (hstem ▸ hsibling), hstem]
  · rw [if_neg hempty] at hsibling ⊢
    have hjson : base ++ ".json" = base ++ "." ++ "json" := by rw [String.append_assoc]; rfl
    have hplain := plain_image hb
    have hbare : Plain (base ++ ".") := plain_dot hb hempty hdot
    have hstem : stem (base ++ ".") = base := by
      have hsplit := @splitEnding_dot base "" hempty (by simp)
      rw [String.append_empty] at hsplit
      rw [stem, hsplit]
    have hcut : cutEnding (dir ++ (base ++ ".json")) = dir ++ (base ++ ".") := by
      have hpath : dir ++ (base ++ ".json") = dir ++ (base ++ ".") ++ "json" := by
        rw [hjson, ← String.append_assoc]
      have hname := fileName?_leading hd hplain
      rw [hpath] at hname ⊢
      refine cutEnding_append hname (hjson ▸ splitEnding_dot hempty (by decide))
    rw [hcut, setEnding_leading hd hbare (hstem.symm ▸ hsibling), hstem]

theorem withEnding_up (hd : Leading dir) (ending : String) : withEnding (dir ++ "..json") ending = dir ++ ".." := by
  have hplain : Plain "..json" := @plain_image "." (by decide)
  have hpath : dir ++ "..json" = dir ++ ".." ++ "json" := by rw [String.append_assoc]; rfl
  have hcut : cutEnding (dir ++ "..json") = dir ++ ".." := by
    have hsplit : splitEnding "..json" = (".", "json") := by decide
    have hname := fileName?_leading hd hplain
    rw [hpath] at hname ⊢
    exact cutEnding_append hname hsplit
  have hnames := @names_leading dir ".." hd (by decide) (by decide)
  have hnone : fileName? (dir ++ "..") = none := by
    unfold fileName?
    rw [hnames]
    exact if_pos (by decide)
  unfold withEnding setEnding
  rw [hcut, hnames]
  exact if_pos (by rw [hnone]; rfl)

end PathName

/-! ## Where siblings lead -/

namespace Disk

open PathName (Leading Plain)

variable {disk disk' : Disk} {dir name : String} {q path : Path}

theorem startsWith_slash (text : String) : text.startsWith "/" = true ↔ text.toList.head? = some '/' := by
  rw [String.startsWith_string_iff]
  exact List.singleton_prefix_iff_head?_eq_some

theorem components_leading (hd : Leading dir) (hs : '/' ∉ name.toList) (hne : name ≠ "") :
    components (dir ++ name) = components dir ++ [name] := by
  have habsolute : (dir ++ name).startsWith "/" = dir.startsWith "/" := by
    rw [Bool.eq_iff_iff, startsWith_slash, startsWith_slash, String.toList_append]
    obtain rfl | ⟨before, rfl⟩ := hd
    · exact ⟨fun h => absurd (List.mem_of_head? h) hs, nofun⟩
    · have hslash : "/".toList = ['/'] := rfl
      rw [String.toList_append, hslash]
      cases before.toList <;> simp
  have hpieces : (PathName.split dir).filter (· ≠ "") = (PathName.split dir).dropLast.filter (· ≠ "") := by
    have hnone := @PathName.split_leading dir "" hd (by simp)
    rw [String.append_empty] at hnone
    rw [hnone, List.dropLast_concat, List.filter_append]
    simp
  unfold components
  rw [PathName.split_leading hd hs, habsolute, List.filter_append, hpieces]
  by_cases habs : dir.startsWith "/" = true
  · simp [habs, hne]
  · simp [habs, hne]

theorem walk_append (disk : Disk) (names more : List String) (path : Path) :
    disk.walk path (names ++ more) = disk.walk path names >>= fun p => disk.walk p more := by
  induction names generalizing path with
  | nil => rfl
  | cons name names ih =>
    rw [List.cons_append, walk, walk]
    cases disk.node? path with
    | none => rfl
    | some node =>
      cases node with
      | file _ => rfl
      | dir =>
        dsimp only
        by_cases hlong : 255 < name.utf8ByteSize
        · rw [if_pos hlong, if_pos hlong]
          rfl
        · rw [if_neg hlong, if_neg hlong]
          exact ih _

/-- A text leads to a directory. -/
structure Hosts (disk : Disk) (dir : String) (q : Path) : Prop where
  way : disk.walk [] (components dir) = .ok q
  node : disk.node? q = some .dir

theorem enter_plain (hn : Plain name) (q : Path) : enter q name = q ++ [name] := by
  unfold enter
  rw [if_neg hn.notHere, if_neg hn.notUp]

/-- **A name in a directory leads into it.** -/
theorem walk_leading (hd : Leading dir) (hs : '/' ∉ name.toList) (hne : name ≠ "")
    (h : disk.walk [] (components (dir ++ name)) = .ok path) :
    ∃ q, disk.Hosts dir q ∧ path = enter q name ∧ name.utf8ByteSize ≤ 255 := by
  rw [components_leading hd hs hne, walk_append] at h
  obtain ⟨q, hq, hlast⟩ := bind_ok h
  rw [walk] at hlast
  cases hnode : disk.node? q with
  | none => rw [hnode] at hlast; cases hlast
  | some node =>
    rw [hnode] at hlast
    cases node with
    | file _ => cases hlast
    | dir =>
      dsimp only at hlast
      by_cases hlong : 255 < name.utf8ByteSize
      · rw [if_pos hlong] at hlast
        cases hlast
      · rw [if_neg hlong] at hlast
        cases hlast
        exact ⟨q, ⟨hq, hnode⟩, rfl, Nat.not_lt.1 hlong⟩

theorem Hosts.walk (h : disk.Hosts dir q) (hd : Leading dir) (hs : '/' ∉ name.toList) (hne : name ≠ "")
    (hlen : name.utf8ByteSize ≤ 255) : disk.walk [] (components (dir ++ name)) = .ok (enter q name) := by
  rw [components_leading hd hs hne, walk_append, h.way]
  change disk.walk q [name] = _
  rw [Disk.walk, h.node]
  exact if_neg (Nat.not_lt.2 hlen)

theorem Hosts.of_keepsDirs (h : disk.Hosts dir q) (hdirs : KeepsDirs disk disk') : disk'.Hosts dir q :=
  ⟨walk_of_keepsDirs hdirs h.way, hdirs q h.node⟩

theorem Hosts.unique {q' : Path} (h : disk.Hosts dir q) (h' : disk.Hosts dir q') : q' = q := by
  have hway := h'.way
  rw [h.way] at hway
  cases hway
  rfl

/-- **Writing a file leaves those beside it as they were.** -/
theorem write_beside {disk disk' : Disk} {dir name : String} {q : Path} {bytes : Bytes} (hd : Leading dir)
    (hq : disk.Hosts dir q) (hn : Plain name) (h : disk.writeFile (dir ++ name) bytes = .ok disk') :
    disk'.Leads (dir ++ name) (q ++ [name]) bytes ∧ disk'.Hosts dir q ∧ name.utf8ByteSize ≤ 255 ∧
      ∀ other, Plain other → other ≠ name → other.utf8ByteSize ≤ 255 →
        disk'.readText (dir ++ other) = disk.readText (dir ++ other) := by
  obtain ⟨path, hleads, hdirs, hothers⟩ := leads_of_writeFile h
  have hq' := hq.of_keepsDirs hdirs
  obtain ⟨names, hnames, hwalk⟩ := hleads.way
  rw [names_ok hnames] at hwalk
  obtain ⟨q', hfound, hpath, hlen⟩ := walk_leading hd hn.noSlash hn.notEmpty hwalk
  rw [hq'.unique hfound, enter_plain hn] at hpath
  subst hpath
  refine ⟨hleads, hq', hlen, fun other ho hne hshort => ?_⟩
  have hway : disk.walk [] (components (dir ++ other)) = .ok (q ++ [other]) := by
    rw [hq.walk hd ho.noSlash ho.notEmpty hshort, enter_plain ho]
  have hother : q ++ [other] ≠ q ++ [name] := by simpa using hne
  exact readText_eq hdirs hway (hothers _ hother)

/-- All that a path goes through is a directory. -/
def Grounded (disk : Disk) (path : Path) : Prop := ∀ p, p <+: path → p ≠ path → disk.node? p = some .dir

theorem node?_of_isBase (h : isBase path = true) : disk.node? path = some .dir := by
  rw [node?, if_pos h]

theorem isBase_concat_up (h : isBase path = true) (hroot : path ≠ ["/"]) : isBase (path ++ [".."]) = true := by
  unfold isBase at h ⊢
  rw [Bool.or_eq_true, beq_iff_eq] at h
  have hup := h.resolve_left hroot
  rw [List.all_append, hup]
  simp

theorem grounded_concat (h : disk.Grounded path) (hd : disk.node? path = some .dir) (name : String) :
    disk.Grounded (path ++ [name]) := by
  intro p hp hne
  rcases List.prefix_concat_iff.1 hp with rfl | hp
  · exact absurd rfl hne
  · by_cases heq : p = path
    · rw [heq, hd]
    · exact h p hp heq

theorem Grounded.dropLast (h : disk.Grounded path) : disk.Grounded path.dropLast := by
  intro p hp hne
  refine h p (hp.trans (List.dropLast_prefix path)) ?_
  rintro rfl
  have hle := hp.length_le
  rw [List.length_dropLast] at hle
  have hnil : p = [] := List.length_eq_zero_iff.1 (by omega)
  exact hne (by rw [hnil]; rfl)

theorem grounded_enter (h : disk.Grounded path) (hd : disk.node? path = some .dir) (name : String) :
    disk.Grounded (enter path name) := by
  unfold enter above
  by_cases hhere : name = "."
  · rw [if_pos hhere]
    exact h
  rw [if_neg hhere]
  by_cases hup : name = ".."
  · rw [if_pos hup]
    by_cases hroot : path = ["/"]
    · rw [if_pos hroot]
      exact h
    rw [if_neg hroot]
    by_cases hbase : isBase path = true
    · rw [if_pos hbase]
      exact grounded_concat h hd ".."
    · rw [if_neg hbase]
      exact h.dropLast
  · rw [if_neg hup]
    exact grounded_concat h hd name

theorem walk_grounded {names : List String} : ∀ {start : Path}, disk.Grounded start →
    disk.walk start names = .ok path → disk.Grounded path := by
  induction names with
  | nil =>
    intro start hg h
    cases h
    exact hg
  | cons name names ih =>
    intro start hg h
    rw [Disk.walk] at h
    cases hnode : disk.node? start with
    | none => rw [hnode] at h; cases h
    | some node =>
      rw [hnode] at h
      cases node with
      | file _ => cases h
      | dir =>
        dsimp only at h
        by_cases hlong : 255 < name.utf8ByteSize
        · rw [if_pos hlong] at h
          cases h
        · rw [if_neg hlong] at h
          exact ih (grounded_enter hg hnode name) h

theorem Hosts.grounded (h : disk.Hosts dir q) : disk.Grounded q := by
  refine walk_grounded (fun p hp hne => ?_) h.way
  exact absurd (List.prefix_nil.1 hp) hne

/-- **Above a directory is a directory.** -/
theorem Hosts.node?_above (h : disk.Hosts dir q) : disk.node? (above q) = some .dir := by
  unfold above
  by_cases hroot : q = ["/"]
  · rw [if_pos hroot, h.node]
  rw [if_neg hroot]
  by_cases hbase : isBase q = true
  · rw [if_pos hbase]
    exact node?_of_isBase (isBase_concat_up hbase hroot)
  · rw [if_neg hbase]
    refine h.grounded _ (List.dropLast_prefix q) fun heq => hbase ?_
    have hlen := congrArg List.length heq
    rw [List.length_dropLast] at hlen
    have hnil : q = [] := List.length_eq_zero_iff.1 (by omega)
    rw [hnil]
    rfl

end Disk

end PseudoVm
