import PseudoVm.Proofs.World.Siblings
/-!
# World.Ancestors: the way up from a path

The path above a path is shorter than the path (`length_lt_of_parent?`), so the way up ends, and it ends where there is
no path above: a path's ancestors are the whole way up (`ancestors_eq_iff_wayUp`).
-/
namespace PseudoVm

namespace PathName

theorem settle_cons_cons (name next : String) (rest : List String) :
    settle (name :: next :: rest) = if isIdle name then settle (next :: rest) else name :: next :: rest := rfl

theorem settle_suffix : ∀ l : List String, settle l <:+ l
  | [] => List.suffix_refl _
  | [_] => List.suffix_refl _
  | name :: next :: rest => by
    rw [settle_cons_cons]
    split
    · exact (settle_suffix (next :: rest)).trans (List.suffix_cons name _)
    · exact List.suffix_refl _

theorem settle_ne_nil : ∀ {l : List String}, l ≠ [] → settle l ≠ []
  | [_], _ => List.cons_ne_nil _ _
  | name :: next :: rest, _ => by
    rw [settle_cons_cons]
    split
    · exact settle_ne_nil (List.cons_ne_nil next rest)
    · exact List.cons_ne_nil _ _

theorem isIdle_of_settle : ∀ {l rest : List String} {name next : String}, settle l = name :: next :: rest →
    isIdle name = false
  | name' :: next' :: rest', rest, name, next, h => by
    rw [settle_cons_cons] at h
    split at h
    · exact isIdle_of_settle h
    · next hidle =>
      obtain rfl := (List.cons.inj h).1
      simpa using hidle

theorem length_le_intercalate {name : String} : ∀ {l : List String}, name ∈ l →
    name.length ≤ (String.intercalate "/" l).length
  | first :: rest, hmem => by
    obtain rfl | hrest := eq_or_ne rest []
    · obtain rfl := List.mem_singleton.1 hmem
      exact Nat.le_of_eq (congrArg String.length String.intercalate_singleton.symm)
    · rw [String.intercalate_cons_of_ne_nil hrest, String.length_append, String.length_append]
      obtain rfl | hmem := List.mem_cons.1 hmem
      · omega
      · have := length_le_intercalate hmem
        omega

theorem eq_append_of_names {path name : String} {rest : List String} (h : names path = name :: rest)
    (hrest : rest ≠ []) : ∃ more, name.length ≤ more.length ∧
      path = String.intercalate "/" (settle rest).reverse ++ "/" ++ more := by
  obtain ⟨skipped, hskipped⟩ := settle_suffix rest
  obtain ⟨idle, hidle⟩ := settle_suffix (split path).reverse
  have hsplit : split path = (settle rest).reverse ++ (skipped.reverse ++ [name] ++ idle.reverse) := by
    have hnames : settle (split path).reverse = name :: (skipped ++ settle rest) := by
      rw [hskipped]
      exact h
    rw [hnames] at hidle
    rw [← List.reverse_reverse (split path), ← hidle]
    simp
  refine ⟨String.intercalate "/" (skipped.reverse ++ [name] ++ idle.reverse), length_le_intercalate (by simp), ?_⟩
  rw [← String.intercalate_append_of_ne_nil (by simpa using settle_ne_nil hrest) (by simp), ← hsplit,
    intercalate_split]

/-- **The path above a path is shorter.** -/
theorem length_lt_of_parent? {path parent : String} (h : parent? path = some parent) :
    parent.length < path.length := by
  unfold parent? at h
  split at h
  · cases h
  · next name hnames =>
    split at h
    · cases h
    · next hne =>
      obtain rfl := Option.some_inj.1 h
      refine Nat.pos_of_ne_zero fun hlen => hne ?_
      rw [String.length_eq_zero_iff.1 hlen] at hnames
      exact ((List.cons.inj hnames).1).symm
  · next name rest hne hnames =>
    obtain rfl := Option.some_inj.1 h
    obtain ⟨more, hmore, hpath⟩ := eq_append_of_names hnames hne
    have hlen := congrArg String.length hpath
    rw [String.length_append, String.length_append] at hlen
    unfold ofNames
    split
    · have hidle : isIdle name = false := by
        obtain ⟨next, rest', rfl⟩ := List.exists_cons_of_ne_nil hne
        exact isIdle_of_settle hnames
      have hname : 0 < name.length := Nat.pos_of_ne_zero fun hzero => by
        rw [String.length_eq_zero_iff.1 hzero] at hidle
        cases hidle
      have hslash : "/".length = 1 := rfl
      omega
    · have hslash : "/".length = 1 := rfl
      omega

theorem ancestorsFor_eq {fuel : Nat} {path : String} (h : path.length ≤ fuel) :
    ancestorsFor fuel path = ancestors path := by
  suffices hmore : ∀ {n m : Nat} {path : String}, path.length ≤ n → path.length ≤ m →
      ancestorsFor n path = ancestorsFor m path from hmore h (Nat.le_refl _)
  intro n
  induction n with
  | zero =>
    intro m path hn _
    have hnone : parent? path = none :=
      Option.eq_none_iff_forall_ne_some.2 fun parent hp => by
        have := length_lt_of_parent? hp
        omega
    cases m with
    | zero => rfl
    | succ m => simp only [ancestorsFor, hnone]
  | succ n ih =>
    intro m path hn hm
    cases hp : parent? path with
    | none => cases m <;> simp only [ancestorsFor, hp]
    | some parent =>
      have hlt := length_lt_of_parent? hp
      cases m with
      | zero => omega
      | succ m =>
        simp only [ancestorsFor, hp]
        rw [ih (m := m) (by omega) (by omega)]

theorem ancestors_eq (path : String) :
    ancestors path = path :: (match parent? path with
      | none => []
      | some parent => ancestors parent) := by
  cases hp : parent? path with
  | none =>
    unfold ancestors
    cases path.length <;> simp only [ancestorsFor, hp]
  | some parent =>
    have hlt := length_lt_of_parent? hp
    obtain ⟨fuel, hfuel⟩ := Nat.exists_eq_add_of_lt hlt
    rw [ancestors, hfuel, ancestorsFor]
    simp only [hp]
    rw [ancestorsFor_eq (by omega)]

/-- The way up from a path: the path, then the way up from the path above it, to the end. -/
inductive WayUp : String → List String → Prop
  | top {path : String} : parent? path = none → WayUp path [path]
  | up {path parent : String} {above : List String} : parent? path = some parent → WayUp parent above →
      WayUp path (path :: above)

theorem WayUp.ancestors_eq {path : String} {way : List String} (h : WayUp path way) : ancestors path = way := by
  induction h with
  | top hp => rw [PathName.ancestors_eq, hp]
  | up hp _ ih => rw [PathName.ancestors_eq, hp, ← ih]

theorem wayUp_ancestors (path : String) : WayUp path (ancestors path) := by
  rw [PathName.ancestors_eq]
  cases hp : parent? path with
  | none => exact .top hp
  | some parent =>
    have hlt := length_lt_of_parent? hp
    exact .up hp (wayUp_ancestors parent)
termination_by path.length

/-- **The ancestors of a path are the whole way up from it.** -/
theorem ancestors_eq_iff_wayUp {path : String} {way : List String} : ancestors path = way ↔ WayUp path way :=
  ⟨fun h => h ▸ wayUp_ancestors path, WayUp.ancestors_eq⟩

end PathName

end PseudoVm
