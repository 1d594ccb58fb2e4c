import Mathlib.Data.List.Nodup
import ShellPrompt.Storage.Tree
import ShellPrompt.Proofs.Text.Splitting
/-!
Looking into a tree. A location has the entry that the list of entries gives it, a directory has
the names of the entries right below it, each once, and a way through directories is still there in
every tree that has these directories. All names on a way that leads to something are in the tree.
-/

set_option autoImplicit false

namespace ShellPrompt

namespace Path

/-- A name that says one step down: not empty, without slash, and neither of the two dot names. -/
structure IsName (name : Text) : Prop where
  ne_nil : name ≠ []
  slash_not_mem : CodePoint.ofChar '/' ∉ name
  ne_here : name ≠ here
  ne_up : name ≠ up

theorem ofText_of_isName {name : Text} (h : IsName name) : ofText name = ⟨.relative, [name]⟩ := by
  have hanchor : anchorOf name = .relative := by
    obtain ⟨c, rest, rfl⟩ := List.exists_cons_of_ne_nil h.ne_nil
    have hc : c ≠ CodePoint.ofChar '/' := fun hc => h.slash_not_mem (hc ▸ List.mem_cons_self)
    simp [anchorOf, hc]
  have hnames : namesOf name = [name] := by
    rw [namesOf, Text.splitAt_of_not_mem h.slash_not_mem]
    simp [h.ne_nil, h.ne_here]
  rw [ofText, hanchor, hnames]

theorem child_of_isName {name : Text} (h : IsName name) (path : Path) :
    path.child name = ⟨path.anchor, path.names ++ [name]⟩ := by
  rw [child, ofText_of_isName h, join]
  rfl

end Path

theorem find?_eq_some_of_unique {α : Type} {p : α → Bool} {xs : List α} {a : α} (hmem : a ∈ xs)
    (ha : p a = true) (hunique : ∀ b ∈ xs, p b = true → b = a) : xs.find? p = some a := by
  cases hfind : xs.find? p with
  | none => exact absurd ha (List.find?_eq_none.mp hfind a hmem)
  | some b =>
    have hb := hunique b (List.mem_of_find?_eq_some hfind) (List.find?_some hfind)
    rw [hb]

namespace Tree

variable {tree other : Tree} {location : Location}

/-- A look-up finds just what the list of entries has, since it has each location once. -/
theorem get?_eq_some_iff (h : location ≠ []) {entry : Entry} :
    tree.get? location = some entry ↔ (location, entry) ∈ tree.entries := by
  have hroot : ¬ location.isEmpty = true := by simpa using h
  rw [get?, if_neg hroot, Option.map_eq_some_iff]
  constructor
  · rintro ⟨⟨at', found⟩, hfind, rfl⟩
    have hat : at' = location := by simpa using List.find?_some hfind
    rw [← hat]
    exact List.mem_of_find?_eq_some hfind
  · intro hmem
    refine ⟨(location, entry), find?_eq_some_of_unique hmem (by simp) ?_, rfl⟩
    intro found hfound hat
    exact List.inj_on_of_nodup_map tree.nodup_locations hfound hmem (by simpa using hat)

theorem lastNameBelow_eq_some_iff {at' : Location} {name : Text} :
    (if at'.dropLast = location then at'.getLast? else none) = some name ↔
      at' = location ++ [name] := by
  constructor
  · intro h
    by_cases hparent : at'.dropLast = location
    · rw [if_pos hparent] at h
      obtain ⟨front, rfl⟩ := List.getLast?_eq_some_iff.mp h
      rw [← hparent, List.dropLast_concat]
    · rw [if_neg hparent] at h
      cases h
  · rintro rfl
    rw [if_pos List.dropLast_concat, List.getLast?_concat]

theorem mem_childNames_iff {name : Text} :
    name ∈ tree.childNames location ↔ tree.get? (location ++ [name]) ≠ none := by
  have hchild : location ++ [name] ≠ [] := by simp
  rw [Option.ne_none_iff_exists', childNames, List.mem_filterMap]
  constructor
  · rintro ⟨⟨at', entry⟩, hmem, hlast⟩
    have hat : at' = location ++ [name] := lastNameBelow_eq_some_iff.mp hlast
    exact ⟨entry, (get?_eq_some_iff hchild).mpr (hat ▸ hmem)⟩
  · rintro ⟨entry, hentry⟩
    exact ⟨_, (get?_eq_some_iff hchild).mp hentry, lastNameBelow_eq_some_iff.mpr rfl⟩

theorem nodup_childNames (tree : Tree) (location : Location) :
    (tree.childNames location).Nodup := by
  have hnames : tree.childNames location = (tree.entries.map Prod.fst).filterMap fun at' =>
      if at'.dropLast = location then at'.getLast? else none := by
    rw [List.filterMap_map]
    rfl
  rw [hnames]
  refine List.Nodup.filterMap ?_ tree.nodup_locations
  intro at' other name hat hother
  rw [lastNameBelow_eq_some_iff.mp hat, lastNameBelow_eq_some_iff.mp hother]

theorem walk_of_directories
    (hsame : ∀ at', tree.get? at' = some .directory → other.get? at' = some .directory)
    {names : List Text} {start : Location} (h : tree.walk start names = .ok location) :
    other.walk start names = .ok location := by
  induction names generalizing start with
  | nil => exact h
  | cons name names ih =>
    rw [walk] at h ⊢
    cases hstart : tree.get? start with
    | none =>
      rw [hstart] at h
      cases h
    | some entry =>
      cases entry with
      | file bytes time =>
        rw [hstart] at h
        cases h
      | directory =>
        rw [hstart] at h
        rw [hsame start hstart]
        exact ih h

theorem locate_child {directory : Location} {path : Path} {name : Text} (hname : Path.IsName name)
    (h : tree.locate directory path = .ok location)
    (hdirectory : tree.get? location = some .directory) :
    tree.locate directory (path.child name) = .ok (location ++ [name]) := by
  have hwalk : ∀ (names : List Text) (start : Location), tree.walk start names = .ok location →
      tree.walk start (names ++ [name]) = .ok (location ++ [name]) := by
    intro names start hwalk
    induction names generalizing start with
    | nil =>
      cases hwalk
      simp only [List.nil_append, walk, hdirectory, enter, if_neg hname.ne_up, if_neg hname.ne_here]
    | cons first names ih =>
      rw [List.cons_append, walk]
      rw [walk] at hwalk
      split at hwalk
      · cases hwalk
      · cases hwalk
      · exact ih _ hwalk
  rw [Path.child_of_isName hname]
  exact hwalk path.names _ h

theorem exists_of_locate_child {directory at' : Location} {path : Path} {name : Text}
    (hname : Path.IsName name) (h : tree.locate directory (path.child name) = .ok at') :
    ∃ location, tree.locate directory path = .ok location ∧
      tree.get? location = some .directory ∧ at' = location ++ [name] := by
  have hwalk : ∀ (names : List Text) (start : Location), tree.walk start (names ++ [name]) = .ok at' →
      ∃ location, tree.walk start names = .ok location ∧ tree.get? location = some .directory ∧
        at' = location ++ [name] := by
    intro names start hwalk
    induction names generalizing start with
    | nil =>
      rw [List.nil_append, walk] at hwalk
      split at hwalk
      · cases hwalk
      · cases hwalk
      next hdirectory =>
        rw [walk, enter, if_neg hname.ne_up, if_neg hname.ne_here] at hwalk
        cases hwalk
        exact ⟨start, rfl, hdirectory, rfl⟩
    | cons first names ih =>
      rw [List.cons_append, walk] at hwalk
      rw [walk]
      split at hwalk
      · cases hwalk
      · cases hwalk
      · exact ih _ hwalk
  rw [Path.child_of_isName hname] at h
  exact hwalk path.names _ h

theorem ne_nil_of_file {bytes : Bytes} {time : Int}
    (h : tree.get? location = some (.file bytes time)) : location ≠ [] := by
  rintro rfl
  cases h

/-- Each name in the tree says one step down, as a system has it. -/
def IsNamed (tree : Tree) : Prop :=
  ∀ at' name, tree.get? (at' ++ [name]) ≠ none → Path.IsName name

/-- No name in the tree has a null character, as no system takes one. -/
def HasNoNull (tree : Tree) : Prop :=
  ∀ at' name, tree.get? (at' ++ [name]) ≠ none → CodePoint.ofNat 0 ∉ name

theorem hasNoNull_iff :
    tree.HasNoNull ↔
      ∀ entry ∈ tree.entries, ∀ name ∈ entry.1.getLast?, CodePoint.ofNat 0 ∉ name := by
  constructor
  · rintro h ⟨at', entry⟩ hmem name hname
    obtain ⟨above, rfl⟩ := List.getLast?_eq_some_iff.mp hname
    refine h above name ?_
    rw [(get?_eq_some_iff (by simp)).mpr hmem]
    simp
  · intro h at' name hsome
    obtain ⟨entry, hentry⟩ := Option.ne_none_iff_exists'.mp hsome
    exact h _ ((get?_eq_some_iff (by simp)).mp hentry) name List.getLast?_concat

theorem get?_ne_none_of_walk {names : List Text} {start : Location}
    (h : tree.walk start names = .ok location) (hsome : tree.get? location ≠ none) :
    tree.get? start ≠ none := by
  cases names with
  | nil =>
    cases h
    exact hsome
  | cons name names =>
    intro hnone
    rw [walk, hnone] at h
    cases h

theorem null_not_mem_of_walk (hnull : tree.HasNoNull) {names : List Text} {start : Location}
    (h : tree.walk start names = .ok location) (hsome : tree.get? location ≠ none) :
    ∀ name ∈ names, CodePoint.ofNat 0 ∉ name := by
  induction names generalizing start with
  | nil => simp
  | cons name names ih =>
    rw [walk] at h
    split at h
    · cases h
    · cases h
    rw [List.forall_mem_cons]
    refine ⟨?_, ih h⟩
    have hnext := get?_ne_none_of_walk h hsome
    rw [enter] at hnext
    split at hnext
    next hup => rw [hup]; decide
    next =>
      split at hnext
      next hhere => rw [hhere]; decide
      next => exact hnull _ _ hnext

theorem hasNull_eq_false {directory : Location} {path : Path} (hnull : tree.HasNoNull)
    (h : tree.locate directory path = .ok location) (hsome : tree.get? location ≠ none) :
    path.hasNull = false := by
  rw [Path.hasNull, List.any_eq_false]
  intro name hname
  simpa using null_not_mem_of_walk hnull h hsome name hname

theorem status_of_locate {directory : Location} {path : Path}
    (h : tree.locate directory path = .ok location) {entry : Entry}
    (hentry : tree.get? location = some entry) : tree.status directory path = .ok entry := by
  rw [status, h]
  simp only [hentry]

end Tree

end ShellPrompt
