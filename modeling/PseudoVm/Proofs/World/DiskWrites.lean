import PseudoVm.Proofs.Text.Utf8RoundTrip
import PseudoVm.World.Disk
/-!
# World.DiskWrites: paths stay where they lead

Writing a file changes what lies at its own path and nothing else (`node?_put`), so it makes no directory and takes
none away.  A path text is followed through directories only: as long as those stay, it leads to the same place
(`walk_of_keepsDirs`), and once a file was opened for writing under a name, the name leads to that file
(`leads_of_openOutput`).  What was written is read back (`Leads.readText`), and what was not is read as before
(`readText_eq`).
-/
namespace PseudoVm

namespace Disk

theorem bind_ok {ε α β : Type} {x : Except ε α} {f : α → Except ε β} {r : β} (h : (x >>= f) = .ok r) :
    ∃ a, x = .ok a ∧ f a = .ok r := by
  cases x with
  | error e => cases h
  | ok a => exact ⟨a, rfl, h⟩

theorem lookup_map_set (path q : Path) (node : Node) (entries : List (Path × Node)) :
    (entries.map fun e => if e.1 = path then (path, node) else e).lookup q =
      if q = path then (entries.lookup path).map fun _ => node else entries.lookup q := by
  induction entries with
  | nil => by_cases hq : q = path <;> simp [hq]
  | cons e entries ih =>
    obtain ⟨key, old⟩ := e
    by_cases hkey : key = path
    · by_cases hq : q = path
      · simp [hkey, hq]
      · have hne : (q == path) = false := by simp [hq]
        simp [hkey, hq, hne, ih, List.lookup_cons]
    · by_cases hq : q = path
      · have hne : (path == key) = false := by simp [Ne.symm hkey]
        rw [if_pos hq] at ih ⊢
        rw [List.map_cons, if_neg hkey, List.lookup_cons, List.lookup_cons, hne, ← ih, hq, hne]
      · simp [hkey, hq, ih, List.lookup_cons]

theorem lookup_put (disk : Disk) (path q : Path) (node : Node) :
    (disk.put path node).entries.lookup q = if q = path then some node else disk.entries.lookup q := by
  unfold put
  by_cases hsome : (disk.entries.lookup path).isSome
  · obtain ⟨old, hold⟩ := Option.isSome_iff_exists.1 hsome
    rw [if_pos hsome, lookup_map_set, hold]
    rfl
  · have hnone : disk.entries.lookup path = none := Option.not_isSome_iff_eq_none.1 hsome
    rw [if_neg hsome]
    simp only [List.lookup_append, List.lookup_cons, List.lookup_nil]
    by_cases hq : q = path
    · simp [hq, hnone]
    · have hne : (q == path) = false := by simp [hq]
      simp [hq, hne]

/-- **Writing changes one path.** -/
theorem node?_put {disk : Disk} {path : Path} (h : isBase path = false) (q : Path) (node : Node) :
    (disk.put path node).node? q = if q = path then some node else disk.node? q := by
  unfold node?
  by_cases hq : q = path
  · rw [hq, h, if_neg (by simp), lookup_put, if_pos rfl, if_pos rfl]
  · rw [lookup_put, if_neg hq, if_neg hq]

theorem isBase_eq_false {disk : Disk} {path : Path} (h : disk.node? path ≠ some .dir) : isBase path = false := by
  cases hb : isBase path with
  | false => rfl
  | true => exact absurd (by rw [node?, hb, if_pos rfl]) h

/-- Every directory of one disk is one of the other. -/
def KeepsDirs (disk disk' : Disk) : Prop := ∀ q, disk.node? q = some .dir → disk'.node? q = some .dir

theorem KeepsDirs.refl (disk : Disk) : KeepsDirs disk disk := fun _ h => h

theorem KeepsDirs.trans {a b c : Disk} (h : KeepsDirs a b) (h' : KeepsDirs b c) : KeepsDirs a c :=
  fun q hq => h' q (h q hq)

theorem keepsDirs_put {disk : Disk} {path : Path} (h : disk.node? path ≠ some .dir) (bytes : Bytes) :
    KeepsDirs disk (disk.put path (.file bytes)) := by
  intro q hq
  have hne : q ≠ path := by rintro rfl; exact h hq
  rw [node?_put (isBase_eq_false h), if_neg hne, hq]

theorem walk_of_keepsDirs {disk disk' : Disk} (h : KeepsDirs disk disk') {names : List String} :
    ∀ {start path : Path}, disk.walk start names = .ok path → disk'.walk start names = .ok path := by
  induction names with
  | nil => intro start path hw; exact hw
  | cons name names ih =>
    intro start path hw
    rw [walk] at hw ⊢
    cases hn : disk.node? start with
    | none => rw [hn] at hw; cases hw
    | some node =>
      rw [hn] at hw
      cases node with
      | file _ => cases hw
      | dir =>
        rw [h start hn]
        dsimp only at hw ⊢
        by_cases hlong : 255 < name.utf8ByteSize
        · rw [if_pos hlong] at hw; cases hw
        · rw [if_neg hlong] at hw ⊢
          exact ih hw

/-- A path text leads to a file with this content. -/
structure Leads (disk : Disk) (text : String) (path : Path) (content : Bytes) : Prop where
  way : ∃ names, Disk.names text = .ok names ∧ disk.walk [] names = .ok path
  noSlash : text.endsWith "/" = false
  node : disk.node? path = some (.file content)

namespace Leads

variable {disk disk' : Disk} {text : String} {path : Path} {content : Bytes}

theorem not_dir (h : disk.Leads text path content) : disk.node? path ≠ some .dir := by rw [h.node]; simp

theorem content_eq (h : disk.Leads text path content) : disk.content path = content := by rw [Disk.content, h.node]

theorem openInput (h : disk.Leads text path content) : disk.openInput text = .ok path := by
  obtain ⟨names, hnames, hwalk⟩ := h.way
  simp only [Disk.openInput, hnames, hwalk, h.node, h.noSlash, bind, Except.bind]
  rfl

theorem openOutput (h : disk.Leads text path content) : disk.openOutput text = .ok (path, disk) := by
  obtain ⟨names, hnames, hwalk⟩ := h.way
  simp only [Disk.openOutput, hnames, hwalk, h.node, h.noSlash, bind, Except.bind]
  rfl

theorem readFile (h : disk.Leads text path content) : disk.readFile text = .ok content := by
  simp only [Disk.readFile, h.openInput, h.node, bind, Except.bind]

theorem of_keepsDirs (h : disk.Leads text path content) (hdirs : KeepsDirs disk disk') {content' : Bytes}
    (hnode : disk'.node? path = some (.file content')) : disk'.Leads text path content' := by
  obtain ⟨names, hnames, hwalk⟩ := h.way
  exact ⟨⟨names, hnames, walk_of_keepsDirs hdirs hwalk⟩, h.noSlash, hnode⟩

theorem put (h : disk.Leads text path content) (bytes : Bytes) :
    (disk.put path (.file bytes)).Leads text path bytes :=
  h.of_keepsDirs (keepsDirs_put h.not_dir bytes) (by rw [node?_put (isBase_eq_false h.not_dir), if_pos rfl])

end Leads

/-- **A name under which a file was opened for writing leads to that file,** which is empty if it was not there. -/
theorem leads_of_openOutput {disk disk' : Disk} {text : String} {path : Path}
    (h : disk.openOutput text = .ok (path, disk')) :
    disk'.Leads text path (disk.content path) ∧ KeepsDirs disk disk' ∧
      ∀ q, q ≠ path → disk'.node? q = disk.node? q := by
  obtain ⟨names, hnames, h⟩ := bind_ok h
  by_cases hslash : text.endsWith "/" = true
  · rw [if_pos hslash] at h
    obtain ⟨_, -, h⟩ := bind_ok h
    cases h
  have hno : text.endsWith "/" = false := by simpa using hslash
  rw [if_neg hslash] at h
  obtain ⟨found, hwalk, h⟩ := bind_ok h
  cases hn : disk.node? found with
  | none =>
    rw [hn] at h
    cases h
    have hnot : disk.node? path ≠ some .dir := by rw [hn]; simp
    have hdirs := keepsDirs_put hnot []
    have hput := @node?_put disk path (isBase_eq_false hnot)
    have hempty : disk.content path = [] := by rw [Disk.content, hn]
    refine ⟨⟨⟨names, hnames, walk_of_keepsDirs hdirs hwalk⟩, hno, ?_⟩, hdirs, ?_⟩
    · rw [hput, if_pos rfl, hempty]
    · intro q hq
      rw [hput, if_neg hq]
  | some node =>
    rw [hn] at h
    cases node with
    | dir => cases h
    | file old =>
      cases h
      exact ⟨⟨⟨names, hnames, hwalk⟩, hno, by rw [Disk.content, hn]⟩, KeepsDirs.refl _, fun _ _ => rfl⟩

/-! ## Reading again -/

section Reading

variable {disk disk' : Disk} {text : String} {path : Path}

theorem Leads.readText {s : String} (h : disk.Leads text path (bytesOf s)) : disk.readText text = .ok s := by
  simp only [Disk.readText, h.readFile, Utf8.text?_bytesOf, bind, Except.bind]

theorem names_ok {names : List String} (h : Disk.names text = .ok names) : names = components text := by
  unfold Disk.names at h
  split at h
  · cases h
  · split at h
    · cases h
    · split at h <;> cases h
      rfl

theorem walk_of_readText {s : String} (h : disk.readText text = .ok s) :
    ∃ path, disk.walk [] (components text) = .ok path := by
  obtain ⟨bytes, hbytes, -⟩ := bind_ok h
  obtain ⟨_, hopen, -⟩ := bind_ok hbytes
  obtain ⟨names, hnames, h⟩ := bind_ok hopen
  obtain ⟨path, hwalk, -⟩ := bind_ok h
  rw [names_ok hnames] at hwalk
  exact ⟨path, hwalk⟩

theorem openInput_eq (hway : disk.walk [] (components text) = .ok path) :
    disk.openInput text = (Disk.names text).bind fun _ =>
      match disk.node? path with
      | none => .error .notFound
      | some .dir => .ok path
      | some (.file _) => if text.endsWith "/" then .error .notADirectory else .ok path := by
  unfold Disk.openInput
  cases hnames : Disk.names text with
  | error e => rfl
  | ok names =>
    obtain rfl := names_ok hnames
    change (disk.walk [] (components text)).bind _ = _
    rw [hway]
    rfl

theorem readText_eq (hdirs : KeepsDirs disk disk') (hway : disk.walk [] (components text) = .ok path)
    (hnode : disk'.node? path = disk.node? path) : disk'.readText text = disk.readText text := by
  have hway' := walk_of_keepsDirs hdirs hway
  have hopen : disk'.openInput text = disk.openInput text := by
    rw [openInput_eq hway, openInput_eq hway', hnode]
  have hfound : ∀ p, disk.openInput text = .ok p → p = path := by
    intro p hp
    rw [openInput_eq hway] at hp
    obtain ⟨_, -, hp⟩ := bind_ok hp
    split at hp
    · cases hp
    · cases hp
      rfl
    · split at hp <;> cases hp
      rfl
  unfold Disk.readText Disk.readFile
  rw [hopen]
  cases ho : disk.openInput text with
  | error e => rfl
  | ok p =>
    obtain rfl := hfound p ho
    simp only [bind, Except.bind, hnode]

theorem readText_of_dir (hne : text ≠ "") (hway : disk.walk [] (components text) = .ok path)
    (hnode : disk.node? path = some .dir) : disk.readText text ≠ .error .notFound := by
  unfold Disk.readText Disk.readFile
  rw [openInput_eq hway, hnode]
  cases hnames : Disk.names text with
  | error e =>
    have hempty : text.isEmpty = false := by simpa using hne
    unfold Disk.names at hnames
    rw [hempty] at hnames
    split at hnames
    · cases hnames
      nofun
    · rw [if_neg (by simp)] at hnames
      split at hnames <;> cases hnames
      nofun
  | ok names =>
    simp only [bind, Except.bind, hnode]
    nofun

theorem leads_of_writeFile {bytes : Bytes} (h : disk.writeFile text bytes = .ok disk') :
    ∃ path, disk'.Leads text path bytes ∧ KeepsDirs disk disk' ∧ ∀ q, q ≠ path → disk'.node? q = disk.node? q := by
  obtain ⟨⟨path, made⟩, hopen, hput⟩ := bind_ok h
  cases hput
  obtain ⟨hleads, hdirs, hothers⟩ := leads_of_openOutput hopen
  refine ⟨path, hleads.put bytes, hdirs.trans (keepsDirs_put hleads.not_dir bytes), fun q hq => ?_⟩
  rw [node?_put (isBase_eq_false hleads.not_dir), if_neg hq, hothers q hq]

end Reading

end Disk

end PseudoVm
