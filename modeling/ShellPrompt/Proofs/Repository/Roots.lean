import Mathlib.Data.List.Induction
import Mathlib.Data.List.Infix
import ShellPrompt.Proofs.Program.Homes
import ShellPrompt.Proofs.Storage.Entries
import ShellPrompt.Repository
/-!
Where a repository begins. A path is resolved by its text alone, and the places from there up to the
root of the file system are the prefixes of the resolved place; the root that is found is the
longest of them with a marker. Main statement: for every absolute path this root is found, or none
if no such place is marked, and it is the same from every place between, whatever the order of the
markers (`findRoot_nearest`).
-/

set_option autoImplicit false

namespace ShellPrompt

namespace Location

variable {location root : Location} {p : Location → Bool}

theorem mem_ancestors_iff {above : Location} : above ∈ location.ancestors ↔ above <+: location := by
  rw [ancestors, List.mem_map]
  constructor
  · rintro ⟨n, -, rfl⟩
    exact List.take_prefix n location
  · intro h
    refine ⟨above.length, ?_, (List.prefix_iff_eq_take.mp h).symm⟩
    rw [List.mem_reverse, List.mem_range]
    exact Nat.lt_succ_of_le h.length_le

theorem pairwise_ancestors (location : Location) :
    location.ancestors.Pairwise fun below above => above.length ≤ below.length := by
  rw [ancestors, List.pairwise_map, List.pairwise_reverse]
  refine List.pairwise_lt_range.imp ?_
  intro n m hlt
  rw [List.length_take, List.length_take]
  omega

/-- The place that a search upwards finds is the longest one that passes the test. -/
theorem find?_ancestors_eq_some_iff :
    location.ancestors.find? p = some root ↔
      root <+: location ∧ p root = true ∧
        ∀ other, other <+: location → p other = true → other.length ≤ root.length := by
  have hfound : ∀ found, location.ancestors.find? p = some found →
      found <+: location ∧ p found = true ∧
        ∀ other, other <+: location → p other = true → other.length ≤ found.length := by
    intro found h
    obtain ⟨hp, before, after, hsplit, hbefore⟩ := List.find?_eq_some_iff_append.mp h
    refine ⟨mem_ancestors_iff.mp (List.mem_of_find?_eq_some h), hp, ?_⟩
    intro other hother hpass
    have hpairwise := location.pairwise_ancestors
    have hmem := mem_ancestors_iff.mpr hother
    rw [hsplit] at hmem hpairwise
    rcases List.mem_append.mp hmem with hmem | hmem
    · have hfail := hbefore other hmem
      rw [hpass] at hfail
      cases hfail
    · rcases List.mem_cons.mp hmem with rfl | hmem
      · exact Nat.le_refl _
      · exact List.rel_of_pairwise_cons (List.pairwise_append.mp hpairwise).2.1 hmem
  constructor
  · exact hfound root
  · rintro ⟨habove, hp, hlongest⟩
    cases hfind : location.ancestors.find? p with
    | none => exact absurd hp (List.find?_eq_none.mp hfind root (mem_ancestors_iff.mpr habove))
    | some found =>
      obtain ⟨hfoundAbove, hfoundP, hfoundLongest⟩ := hfound found hfind
      have hlength := Nat.le_antisymm (hlongest found hfoundAbove hfoundP)
        (hfoundLongest root habove hp)
      have hsame := List.prefix_of_prefix_length_le hfoundAbove habove (Nat.le_of_eq hlength)
      rw [hsame.eq_of_length hlength]

end Location

namespace Path

theorem mem_follow {location : Location} {names : List Text} {name : Text}
    (h : name ∈ follow location names) : name ∈ location ∨ name ∈ names ∧ name ≠ up := by
  induction names generalizing location with
  | nil => exact Or.inl h
  | cons first names ih =>
    rw [follow, List.foldl_cons] at h
    rcases ih h with h | ⟨h, hup⟩
    · by_cases hfirst : first = up
      · rw [if_pos hfirst] at h
        exact Or.inl (List.mem_of_mem_dropLast h)
      · rw [if_neg hfirst, List.mem_append, List.mem_singleton] at h
        rcases h with h | rfl
        · exact Or.inl h
        · exact Or.inr ⟨List.mem_cons_self, hfirst⟩
    · exact Or.inr ⟨List.mem_cons_of_mem _ h, hup⟩

theorem isName_of_mem_namesOf {t name : Text} (h : name ∈ namesOf t) (hup : name ≠ up) :
    IsName name := by
  rw [namesOf, List.mem_filter, Bool.not_eq_true', Bool.or_eq_false_iff] at h
  obtain ⟨hsplit, hempty, hhere⟩ := h
  constructor
  case ne_nil => simpa using hempty
  case slash_not_mem => exact Text.not_mem_of_mem_splitAt hsplit
  case ne_here => simpa using hhere
  case ne_up => exact hup

theorem isName_of_mem_resolve {directory : Location} {t name : Text}
    (habsolute : (ofText t).isAbsolute = true) (h : name ∈ resolve directory (ofText t)) :
    IsName name := by
  rw [resolve, if_pos habsolute] at h
  rcases mem_follow h with h | ⟨h, hup⟩
  · cases h
  · exact isName_of_mem_namesOf h hup

end Path

namespace Tree

variable {tree : Tree} {directory location : Location}

/-- Whatever the tree has is in a directory. -/
def IsRooted (tree : Tree) : Prop :=
  ∀ at' name, tree.get? (at' ++ [name]) ≠ none → tree.get? at' = some .directory

theorem isRooted_iff :
    tree.IsRooted ↔
      ∀ entry ∈ tree.entries, tree.get? entry.1.dropLast = some .directory := by
  constructor
  · rintro h ⟨at', entry⟩ hmem
    rcases List.eq_nil_or_concat at' with rfl | ⟨above, name, rfl⟩
    · rfl
    · rw [List.concat_eq_append] at hmem ⊢
      rw [List.dropLast_concat]
      refine h above name ?_
      rw [(get?_eq_some_iff (by simp)).mpr hmem]
      simp
  · intro h at' name hsome
    obtain ⟨entry, hentry⟩ := Option.ne_none_iff_exists'.mp hsome
    have hparent := h _ ((get?_eq_some_iff (by simp)).mp hentry)
    rwa [List.dropLast_concat] at hparent

theorem exists?_eq_true_iff {path : Path} :
    tree.exists? directory path = true ↔
      ∃ at', tree.locate directory path = .ok at' ∧ tree.get? at' ≠ none := by
  rw [exists?, status]
  cases tree.locate directory path with
  | error refusal => simp
  | ok at' => cases hentry : tree.get? at' <;> simp [hentry]

theorem eq_append_of_walk {names : List Text} {start : Location}
    (hnames : ∀ name ∈ names, Path.IsName name) (h : tree.walk start names = .ok location) :
    location = start ++ names := by
  induction names generalizing start with
  | nil =>
    cases h
    exact (List.append_nil _).symm
  | cons name names ih =>
    have hname := hnames name List.mem_cons_self
    rw [walk] at h
    split at h
    · cases h
    · cases h
    · rw [enter, if_neg hname.ne_up, if_neg hname.ne_here] at h
      rw [ih (fun name hname => hnames name (List.mem_cons_of_mem _ hname)) h, List.append_assoc]
      rfl

theorem locate_ofLocation (hrooted : tree.IsRooted) (hnames : ∀ name ∈ location, Path.IsName name)
    (h : tree.get? location ≠ none) :
    tree.locate directory (Path.ofLocation location) = .ok location := by
  induction location using List.reverseRecOn with
  | nil => rfl
  | append_singleton above name ih =>
    have hname := hnames name (by simp)
    have hdirectory := hrooted above name h
    have habove := ih (fun name hname => hnames name (List.mem_append_left _ hname))
      (by simp [hdirectory])
    have hchild := locate_child hname habove hdirectory
    rwa [Path.child_of_isName hname] at hchild

theorem exists?_child_iff (hrooted : tree.IsRooted)
    (hlocation : ∀ name ∈ location, Path.IsName name) {name : Text} (hname : Path.IsName name) :
    tree.exists? directory ((Path.ofLocation location).child name) = true ↔
      tree.get? (location ++ [name]) ≠ none := by
  rw [exists?_eq_true_iff]
  constructor
  · rintro ⟨at', hlocate, hentry⟩
    obtain ⟨found, hfound, -, rfl⟩ := exists_of_locate_child hname hlocate
    have hsame : found = [] ++ location := eq_append_of_walk hlocation hfound
    rwa [hsame] at hentry
  · intro hentry
    have hdirectory := hrooted location name hentry
    have hsome : tree.get? location ≠ none := by simp [hdirectory]
    exact ⟨_, locate_child hname (locate_ofLocation hrooted hlocation hsome) hdirectory, hentry⟩

end Tree

namespace Repository

variable {environment : Environment} {tree : Tree} {names : List Text}
  {directory place root : Location}

/-- A place has an entry, be it a file or a directory, that is named by one of the markers. -/
def HasMarker (tree : Tree) (names : List Text) (location : Location) : Prop :=
  ∃ name ∈ names, tree.get? (location ++ [name]) ≠ none

/-- The root is the longest of a place and those above it that have a marker. -/
structure IsNearest (tree : Tree) (names : List Text) (place root : Location) : Prop where
  above : root <+: place
  marked : HasMarker tree names root
  longest : ∀ other, other <+: place → HasMarker tree names other → other.length ≤ root.length

theorem IsNearest.between (h : IsNearest tree names place root) {between : Location}
    (hroot : root <+: between) (hplace : between <+: place) :
    IsNearest tree names between root where
  above := hroot
  marked := h.marked
  longest := fun other hother => h.longest other (hother.trans hplace)

theorem isMarked_iff (hrooted : tree.IsRooted) (hnames : ∀ name ∈ names, Path.IsName name)
    (hplace : ∀ name ∈ place, Path.IsName name) :
    isMarked tree directory names place = true ↔ HasMarker tree names place := by
  rw [isMarked, List.any_eq_true, HasMarker]
  constructor
  · rintro ⟨name, hname, hexists⟩
    exact ⟨name, hname, (Tree.exists?_child_iff hrooted hplace (hnames name hname)).mp hexists⟩
  · rintro ⟨name, hname, hentry⟩
    exact ⟨name, hname, (Tree.exists?_child_iff hrooted hplace (hnames name hname)).mpr hentry⟩

theorem isMarked_congr {others : List Text} (h : ∀ name, name ∈ others ↔ name ∈ names) :
    isMarked tree directory others = isMarked tree directory names := by
  funext location
  rw [Bool.eq_iff_iff, isMarked, isMarked, List.any_eq_true, List.any_eq_true]
  simp only [h]

theorem findRoot_of_isAbsolute {path : Path} (h : path.isAbsolute = true) :
    findRoot environment tree path names =
      .ok ((path.resolve environment.directory).ancestors.find?
        (isMarked tree environment.directory names)) := by
  rw [findRoot, Environment.resolve, Environment.expandHome_of_isAbsolute h]
  rfl

section Search

variable (hrooted : tree.IsRooted) (hnames : ∀ name ∈ names, Path.IsName name)
  (hplace : ∀ name ∈ place, Path.IsName name)

include hrooted hnames hplace

theorem isMarked_above_iff {above : Location} (habove : above <+: place) :
    isMarked tree directory names above = true ↔ HasMarker tree names above :=
  isMarked_iff hrooted hnames fun name hname => hplace name (habove.subset hname)

theorem find?_isMarked_eq_some_iff :
    place.ancestors.find? (isMarked tree directory names) = some root ↔
      IsNearest tree names place root := by
  have hmarked : ∀ above, above <+: place →
      (isMarked tree directory names above = true ↔ HasMarker tree names above) :=
    fun above => isMarked_above_iff hrooted hnames hplace
  rw [Location.find?_ancestors_eq_some_iff]
  constructor
  · rintro ⟨habove, hroot, hlongest⟩
    refine ⟨habove, (hmarked root habove).mp hroot, ?_⟩
    intro other hother hother'
    exact hlongest other hother ((hmarked other hother).mpr hother')
  · rintro ⟨habove, hroot, hlongest⟩
    refine ⟨habove, (hmarked root habove).mpr hroot, ?_⟩
    intro other hother hother'
    exact hlongest other hother ((hmarked other hother).mp hother')

theorem find?_isMarked_eq_none_iff :
    place.ancestors.find? (isMarked tree directory names) = none ↔
      ∀ above, above <+: place → ¬ HasMarker tree names above := by
  rw [List.find?_eq_none]
  constructor
  · intro h above habove hmarker
    exact h above (Location.mem_ancestors_iff.mpr habove)
      ((isMarked_above_iff hrooted hnames hplace habove).mpr hmarker)
  · intro h above hmem hmarked
    have habove := Location.mem_ancestors_iff.mp hmem
    exact h above habove ((isMarked_above_iff hrooted hnames hplace habove).mp hmarked)

end Search

/--
For every file tree, every absolute path and all markers that are plain names, a search for the root
ends without a fault. It finds the longest of the resolved path and the places above it with an
entry named by a marker, and nothing exactly if there is none. From every absolute path that
resolves to a place between the root and the start the same root is found, and markers in another
order lead to the same result.
-/
theorem findRoot_nearest (environment : Environment) {tree : Tree} (hrooted : tree.IsRooted)
    {start : Text} (habsolute : start.head? = some (CodePoint.ofChar '/')) {names : List Text}
    (hnames : ∀ name ∈ names, Path.IsName name) :
    let place := (Path.ofText start).resolve environment.directory
    ∃ found, findRoot environment tree (Path.ofText start) names = .ok found ∧
      (∀ root, found = some root ↔ IsNearest tree names place root) ∧
      (found = none ↔ ∀ above, above <+: place → ¬ HasMarker tree names above) ∧
      (∀ root, found = some root → ∀ between : Path, between.isAbsolute = true →
        root <+: between.resolve environment.directory →
        between.resolve environment.directory <+: place →
          findRoot environment tree between names = .ok (some root)) ∧
      ∀ others, (∀ name, name ∈ others ↔ name ∈ names) →
        findRoot environment tree (Path.ofText start) others = .ok found := by
  intro place
  have hpath : (Path.ofText start).isAbsolute = true := Path.isAbsolute_ofText_iff.mpr habsolute
  have hplace : ∀ name ∈ place, Path.IsName name := fun name hname =>
    Path.isName_of_mem_resolve hpath hname
  have hsome : ∀ root,
      place.ancestors.find? (isMarked tree environment.directory names) = some root ↔
        IsNearest tree names place root :=
    fun root => find?_isMarked_eq_some_iff hrooted hnames hplace
  refine ⟨_, findRoot_of_isAbsolute hpath, hsome, find?_isMarked_eq_none_iff hrooted hnames hplace,
    ?_, ?_⟩
  · intro root hroot between hbetween habove hbelow
    have hnearest := ((hsome root).mp hroot).between habove hbelow
    have hbetweenNames : ∀ name ∈ between.resolve environment.directory, Path.IsName name :=
      fun name hname => hplace name (hbelow.subset hname)
    rw [findRoot_of_isAbsolute hbetween,
      (find?_isMarked_eq_some_iff hrooted hnames hbetweenNames).mpr hnearest]
  · intro others hothers
    rw [findRoot_of_isAbsolute hpath, isMarked_congr hothers]

/-- The path goes through a file and ends where nothing is; the marker above them is a file. -/
theorem findRoot_nearest_beside_file :
    let tree : Tree := ⟨[(["r"], .directory), (["r", ".hg"], .file [] 0), (["r", "s"], .directory),
      (["r", "s", "f"], .file [] 0)], by decide +kernel⟩
    let environment : Environment := ⟨[], ["w"], []⟩
    let start : Text := "/r/s/f/../x"
    let names : List Text := [".git", ".hg"]
    let place : Location := ["r", "s", "x"]
    let root : Location := ["r"]
    (tree.IsRooted ∧ start.head? = some (CodePoint.ofChar '/') ∧
      ∀ name ∈ names, Path.IsName name) ∧
    findRoot environment tree (Path.ofText start) names = .ok (some root) ∧
    IsNearest tree names place root ∧
    findRoot environment tree (Path.ofText "//r/./s") names = .ok (some root) ∧
    findRoot environment tree (Path.ofText start) names.reverse = .ok (some root) := by
  intro tree environment start names place root
  have hrooted : tree.IsRooted := Tree.isRooted_iff.mpr (by decide +kernel)
  have hnames : ∀ name ∈ names, Path.IsName name := by
    intro name hname
    rcases List.mem_pair.mp hname with rfl | rfl <;>
      exact ⟨by decide, by decide, by decide, by decide⟩
  have hplace : (Path.ofText start).resolve environment.directory = place := by decide +kernel
  obtain ⟨found, hfound, hnearest, -, hbetween, hothers⟩ :=
    @findRoot_nearest environment tree hrooted start rfl names hnames
  have hsearch : place.ancestors.find? (isMarked tree environment.directory names) = some root := by
    decide +kernel
  have hroot : found = some root := by
    rw [findRoot_of_isAbsolute (by decide +kernel), hplace, hsearch] at hfound
    exact (Except.ok.inj hfound).symm
  subst hroot
  refine ⟨⟨hrooted, rfl, hnames⟩, hfound, ?_, ?_, ?_⟩
  · rw [← hplace]
    exact (hnearest root).mp rfl
  · exact hbetween root rfl _ (by decide +kernel) (by decide +kernel) (by decide +kernel)
  · exact hothers names.reverse (by simp)

end Repository

end ShellPrompt
