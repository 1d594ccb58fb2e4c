import ShellPrompt.Prompt.Directory
import ShellPrompt.Proofs.Storage.Entries
/-!
The directory that a prompt shows. Below a base it is the base's short name and a way down from
there, and the way down can be read back, so the directory can be too if it is known whether there
is a root and where the home directory is. Main statement: what is shown, that it leads back to the
directory, so that two directories are never shown alike, and that it is empty for the root of the
file system alone, where that is the root of a repository (`directory_leads_back`).
-/

set_option autoImplicit false

namespace ShellPrompt

namespace Path

variable {path base : Path} {names : List Text}

/-- An absolute path of names that each say one step down. -/
structure IsNormal (path : Path) : Prop where
  absolute : path.isAbsolute = true
  isName : ∀ name ∈ path.names, IsName name

def below (base : Path) (names : List Text) : Path :=
  ⟨base.anchor, base.names ++ names⟩

def IsWithin (path base : Path) : Prop :=
  ∃ names, path = base.below names

@[simp] theorem below_nil (base : Path) : base.below [] = base := by
  rw [below, List.append_nil]

theorem IsNormal.isName_of_below (h : (base.below names).IsNormal) :
    ∀ name ∈ names, IsName name :=
  fun name hname => h.isName name (List.mem_append_right base.names hname)

theorem IsNormal.isName_of_base (h : (base.below names).IsNormal) :
    ∀ name ∈ base.names, IsName name :=
  fun name hname => h.isName name (List.mem_append_left names hname)

theorem relativeTo?_below (base : Path) (names : List Text) :
    (base.below names).relativeTo? base = some ⟨.relative, names⟩ := by
  simp [relativeTo?, below]

theorem relativeTo?_of_not_isWithin (h : ¬ path.IsWithin base) : path.relativeTo? base = none := by
  rw [relativeTo?, if_neg]
  rintro ⟨hanchor, hnames⟩
  obtain ⟨names, hnames⟩ := List.isPrefixOf_iff_prefix.mp hnames
  refine h ⟨names, ?_⟩
  rw [below, ← hanchor, hnames]

def descent (names : List Text) : Text :=
  names.flatMap fun name => CodePoint.ofChar '/' :: name

theorem slash_cons_join (h : names ≠ []) :
    CodePoint.ofChar '/' :: Text.join ['/'] names = descent names := by
  induction names with
  | nil => exact absurd rfl h
  | cons name names ih =>
    cases names with
    | nil => simp [Text.join, descent]
    | cons next names =>
      have hnext := ih (List.cons_ne_nil next names)
      rw [descent, List.flatMap_cons, ← descent, ← hnext, Text.join_cons_cons]
      simp

theorem splitAt_descent (h : ∀ name ∈ names, IsName name) :
    Text.splitAt '/' (descent names) = [] :: names := by
  induction names with
  | nil => rfl
  | cons name names ih =>
    obtain ⟨hname, hnames⟩ := List.forall_mem_cons.mp h
    have hrest := Text.splitAt_append_of_not_mem hname.slash_not_mem (ih hnames)
    rw [List.append_nil] at hrest
    rw [descent, List.flatMap_cons, ← descent, List.cons_append, Text.splitAt_cons_self, hrest]

theorem namesOf_descent (h : ∀ name ∈ names, IsName name) : namesOf (descent names) = names := by
  have hkept : names.filter (fun name => !(name.isEmpty || name = here)) = names := by
    rw [List.filter_eq_self]
    intro name hname
    simp [(h name hname).ne_nil, (h name hname).ne_here]
  rw [namesOf, splitAt_descent h, List.filter_cons_of_neg (by simp), hkept]

theorem abbreviated_eq (name : Text) (names : List Text) :
    Prompt.abbreviated name ⟨.relative, names⟩ = name ++ descent names := by
  rw [Prompt.abbreviated]
  cases names with
  | nil => simp [descent]
  | cons first names =>
    rw [← slash_cons_join (List.cons_ne_nil first names)]
    simp [written, Anchor.written]

theorem namesOf_slash_cons (t : Text) : namesOf (CodePoint.ofChar '/' :: t) = namesOf t := by
  rw [namesOf, Text.splitAt_cons_self, List.filter_cons_of_neg (by simp), namesOf]

theorem takeWhile_descent (hne : names ≠ []) (h : ∀ name ∈ names, IsName name) :
    (descent names).takeWhile (fun (c : CodePoint) => c = '/') = [CodePoint.ofChar '/'] := by
  obtain ⟨name, names, rfl⟩ := List.exists_cons_of_ne_nil hne
  have hname := h name List.mem_cons_self
  obtain ⟨c, name, rfl⟩ := List.exists_cons_of_ne_nil hname.ne_nil
  have hc : c ≠ CodePoint.ofChar '/' := fun hc => hname.slash_not_mem (hc ▸ List.mem_cons_self)
  simp [descent, hc]

theorem ofText_written (h : path.IsNormal) : ofText path.written = path := by
  obtain ⟨anchor, names⟩ := path
  obtain ⟨habsolute, hnames⟩ := h
  by_cases hne : names = []
  · subst hne
    cases anchor with
    | relative => cases habsolute
    | root | doubleRoot => rfl
  have hslashes := takeWhile_descent hne hnames
  have hread := namesOf_descent hnames
  cases anchor with
  | relative => cases habsolute
  | root =>
    have hwritten : written ⟨.root, names⟩ = descent names := by
      simp [written, Anchor.written, slash_cons_join hne]
    rw [hwritten, ofText, hread, anchorOf, hslashes]
    rfl
  | doubleRoot =>
    have hwritten : written ⟨.doubleRoot, names⟩ = CodePoint.ofChar '/' :: descent names := by
      simp [written, Anchor.written, slash_cons_join hne]
    rw [hwritten, ofText, namesOf_slash_cons, hread, anchorOf, List.takeWhile_cons_of_pos (by simp),
      hslashes]
    rfl

theorem head?_written (h : path.isAbsolute = true) :
    path.written.head? = some (CodePoint.ofChar '/') := by
  obtain ⟨anchor, names⟩ := path
  cases anchor with
  | relative => cases h
  | root | doubleRoot => simp [written, Anchor.written]

theorem name_eq_nil_iff (h : ∀ name ∈ path.names, IsName name) :
    path.name = [] ↔ path.names = [] := by
  rw [name]
  constructor
  · intro hname
    cases hlast : path.names.getLast? with
    | none => exact List.getLast?_eq_none_iff.mp hlast
    | some name =>
      rw [hlast] at hname
      exact absurd hname (h name (List.mem_of_getLast? hlast)).ne_nil
  · intro hnames
    rw [hnames]
    rfl

end Path

namespace Prompt

variable {path home base : Path} {root : Option Path} {names : List Text}

/--
What stands for a directory: the name of its repository's root, or a tilde for the home directory,
alone or with the way down from there, or else its path in full.
-/
inductive Shows (path home : Path) : Option Path → Text → Prop where
  | root (base : Path) (hpath : path = base) : Shows path home (some base) base.name
  | inRoot (base : Path) {names : List Text} (hnames : names ≠ [])
      (hpath : path = base.below names) :
      Shows path home (some base) (base.name ++ (['/'] : Text) ++ Text.join ['/'] names)
  | home (hpath : path = home) : Shows path home none ['~']
  | inHome {names : List Text} (hnames : names ≠ []) (hpath : path = home.below names) :
      Shows path home none ((['~'] : Text) ++ (['/'] : Text) ++ Text.join ['/'] names)
  | elsewhere (hpath : ¬ path.IsWithin home) : Shows path home none path.written

/-- The directory that a text stands for, beside a home directory and maybe in a repository. -/
def expanded (home : Path) : Option Path → Text → Path
  | some base, shown => base.below (Path.namesOf (shown.drop base.name.length))
  | none, [] => Path.ofText []
  | none, c :: rest => if c = '~' then home.below (Path.namesOf rest) else Path.ofText (c :: rest)

theorem directory_inRoot (base : Path) (names : List Text) (home : Option Path) :
    directory (base.below names) home (some base) = base.name ++ Path.descent names := by
  simp only [directory, Option.bind_some, Path.relativeTo?_below, Option.map_some,
    Path.abbreviated_eq]

theorem directory_inHome (home : Path) (names : List Text) :
    directory (home.below names) (some home) none = CodePoint.ofChar '~' :: Path.descent names := by
  simp only [directory, Option.bind_some, Option.bind_none, Path.relativeTo?_below, Option.map_some,
    Path.abbreviated_eq, List.cons_append, List.nil_append]

theorem directory_elsewhere (h : ¬ path.IsWithin home) :
    directory path (some home) none = path.written := by
  simp only [directory, Option.bind_some, Option.bind_none, Path.relativeTo?_of_not_isWithin h,
    Option.map_none]

theorem shows_directory (hroot : ∀ base ∈ root, path.IsWithin base) (home : Path) :
    Shows path home root (directory path (some home) root) := by
  cases root with
  | some base =>
    obtain ⟨names, rfl⟩ := hroot base rfl
    rw [directory_inRoot]
    by_cases hnames : names = []
    · rw [hnames, Path.below_nil, Path.descent, List.flatMap_nil, List.append_nil]
      exact .root base rfl
    · rw [← Path.slash_cons_join hnames, ← List.singleton_append, ← List.append_assoc]
      exact .inRoot base hnames rfl
  | none =>
    by_cases hhome : path.IsWithin home
    · obtain ⟨names, rfl⟩ := hhome
      rw [directory_inHome]
      by_cases hnames : names = []
      · rw [hnames, Path.below_nil, Path.descent, List.flatMap_nil]
        exact .home rfl
      · rw [← Path.slash_cons_join hnames]
        exact .inHome hnames rfl
    · rw [directory_elsewhere hhome]
      exact .elsewhere hhome

theorem expanded_of_slash {shown : Text} (h : shown.head? = some (CodePoint.ofChar '/')) :
    expanded home none shown = Path.ofText shown := by
  cases shown with
  | nil => cases h
  | cons c rest =>
    cases h
    rfl

theorem expanded_directory (hpath : path.IsNormal) (hroot : ∀ base ∈ root, path.IsWithin base) :
    expanded home root (directory path (some home) root) = path := by
  cases root with
  | some base =>
    obtain ⟨names, rfl⟩ := hroot base rfl
    rw [directory_inRoot, expanded, List.drop_left, Path.namesOf_descent hpath.isName_of_below]
  | none =>
    by_cases hhome : path.IsWithin home
    · obtain ⟨names, rfl⟩ := hhome
      rw [directory_inHome, expanded, if_pos rfl, Path.namesOf_descent hpath.isName_of_below]
    · rw [directory_elsewhere hhome, expanded_of_slash (Path.head?_written hpath.absolute),
        Path.ofText_written hpath]

theorem directory_eq_nil_iff (hpath : path.IsNormal) (hroot : ∀ base ∈ root, path.IsWithin base) :
    directory path (some home) root = [] ↔ root = some path ∧ path.names = [] := by
  cases root with
  | some base =>
    obtain ⟨names, rfl⟩ := hroot base rfl
    rw [directory_inRoot, List.append_eq_nil_iff, Path.name_eq_nil_iff hpath.isName_of_base,
      Path.below, List.append_eq_nil_iff]
    constructor
    · rintro ⟨hbase, hnames⟩
      have hnames : names = [] := by
        cases names with
        | nil => rfl
        | cons name names => simp [Path.descent] at hnames
      subst hnames
      exact ⟨by rw [List.append_nil], hbase, rfl⟩
    · rintro ⟨-, hbase, rfl⟩
      exact ⟨hbase, rfl⟩
  | none =>
    have hshown : directory path (some home) none ≠ [] := by
      by_cases hhome : path.IsWithin home
      · obtain ⟨names, rfl⟩ := hhome
        rw [directory_inHome]
        exact List.cons_ne_nil _ _
      · intro hnil
        have hslash := Path.head?_written hpath.absolute
        rw [← directory_elsewhere hhome, hnil] at hslash
        cases hslash
    simp [hshown]

/--
For every normal directory, every home directory and no root or a root that the directory is in,
what is shown is the root's name and the way down from the root, else a tilde and the way down from
the home directory, else the directory in full. It leads back to the directory, so no other
directory in the same repository, or outside of repositories, is shown alike. And it is empty only
for the root of the file system where that is the root of the repository.
-/
theorem directory_leads_back (hpath : path.IsNormal) (home : Path)
    (hroot : ∀ base ∈ root, path.IsWithin base) :
    let shown := directory path (some home) root
    Shows path home root shown ∧ expanded home root shown = path ∧
      (∀ other : Path, other.IsNormal → (∀ base ∈ root, other.IsWithin base) →
        directory other (some home) root = shown → other = path) ∧
      (shown = [] ↔ root = some path ∧ path.names = []) := by
  intro shown
  have hexpanded : expanded home root shown = path := expanded_directory hpath hroot
  refine ⟨shows_directory hroot home, hexpanded, ?_, directory_eq_nil_iff hpath hroot⟩
  intro other hother hwithin hsame
  calc other = expanded home root (directory other (some home) root) :=
        (expanded_directory hother hwithin).symm
    _ = path := by rw [hsame, hexpanded]

/-- A repository right below the root of the file system, in a home directory that is that root. -/
theorem directory_leads_back_below_root :
    let path : Path := ⟨.root, ["r", "~"]⟩
    let home : Path := ⟨.root, []⟩
    let base : Path := ⟨.root, ["r"]⟩
    (path.IsNormal ∧ path.IsWithin base) ∧ directory path (some home) (some base) = ("r/~" : Text) ∧
      expanded home (some base) "r/~" = path ∧ expanded home none "~/r/~" = path := by
  intro path home base
  have hpath : path.IsNormal := by
    refine ⟨rfl, ?_⟩
    intro name hname
    rcases List.mem_pair.mp hname with rfl | rfl <;>
      exact ⟨by decide, by decide, by decide, by decide⟩
  have hwithin : path.IsWithin base := ⟨["~"], rfl⟩
  have hinRoot : ∀ other ∈ some base, path.IsWithin other := by simp [hwithin]
  have hshown : directory path (some home) (some base) = ("r/~" : Text) := by decide
  have hhome : directory path (some home) none = ("~/r/~" : Text) := by decide
  refine ⟨⟨hpath, hwithin⟩, hshown, ?_, ?_⟩
  · rw [← hshown]
    exact (directory_leads_back hpath home hinRoot).2.1
  · rw [← hhome]
    exact (directory_leads_back hpath home (by simp)).2.1

/-- Nothing is shown in a repository at the root of the file system. -/
theorem not_forall_directory_ne_nil :
    ¬ ∀ (path home : Path) (root : Option Path), path.IsNormal → home.IsNormal →
      (∀ base ∈ root, path.IsWithin base) → directory path (some home) root ≠ [] := by
  intro h
  have hpath : Path.IsNormal ⟨.root, []⟩ := ⟨rfl, by simp⟩
  have hhome : Path.IsNormal ⟨.root, ["home"]⟩ := by
    refine ⟨rfl, ?_⟩
    intro name hname
    rw [List.mem_singleton.mp hname]
    exact ⟨by decide, by decide, by decide, by decide⟩
  exact h _ _ (some ⟨.root, []⟩) hpath hhome (by simpa using ⟨[], rfl⟩) (by decide)

end Prompt

end ShellPrompt
