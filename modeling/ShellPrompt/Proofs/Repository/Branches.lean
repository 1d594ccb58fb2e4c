import ShellPrompt.Proofs.Repository.Roots
import ShellPrompt.Proofs.Text.Ends
/-!
What is checked out in a repository. The directory with its data is at the root, or a file at the
root points to it; one file there has the text that says what is checked out, and this text can be
read in one way. Main statement: a pointer leads to what a directory in its place would give, and
the branch is what the text says, or none where there is no such file (`branch_through_pointers`).
-/

set_option autoImplicit false

namespace ShellPrompt

namespace Repository

/-- What a trimmed text says that is checked out: a branch, another reference, or a commit. -/
inductive Says : Text → Option Text → Prop where
  | branch {blanks : Text} (name : Text) (hblanks : ∀ c ∈ blanks, c.isBlank = true) :
      Says (referenceHead ++ (blanks ++ (branchHead ++ name))) (some name)
  | reference {reference : Text} (hreference : ¬ branchHead <+: reference.trim) :
      Says (referenceHead ++ reference) (some reference.trim)
  | commit {head : Text} (hne : head ≠ []) (hcommit : ¬ referenceHead <+: head) :
      Says head (some (head.take shortLength))
  | nothing : Says [] none

variable {head : Text} {shown : Option Text}

theorem branchOf_reference (reference : Text) :
    branchOf (referenceHead ++ reference) =
      some ((Text.dropHead? branchHead reference.trim).getD reference.trim) := by
  rw [branchOf, Text.dropHead?_eq_some_iff.mpr rfl]

theorem branchOf_commit (hne : head ≠ []) (hcommit : ¬ referenceHead <+: head) :
    branchOf head = some (head.take shortLength) := by
  rw [branchOf, Text.dropHead?_eq_none_iff.mpr hcommit]
  simp [hne]

theorem trim_branch {blanks name : Text} (hblanks : ∀ c ∈ blanks, c.isBlank = true)
    (h : Text.IsTrimmed (referenceHead ++ (blanks ++ (branchHead ++ name)))) :
    (blanks ++ (branchHead ++ name)).trim = branchHead ++ name := by
  rw [← List.append_assoc] at h
  have hbranch : Text.IsTrimmed (branchHead ++ name) := by
    refine h.of_append ?_
    intro c hc
    cases hc
    decide
  rw [Text.trim_blanks_append hblanks, hbranch.trim_eq_self]

theorem eq_nil_of_isTrimmed {front blanks : Text} (hblanks : ∀ c ∈ blanks, c.isBlank = true)
    (h : Text.IsTrimmed (front ++ blanks)) : blanks = [] := by
  cases hlast : blanks.getLast? with
  | none => exact List.getLast?_eq_none_iff.mp hlast
  | some c =>
    have hc := h.last c (by rw [List.getLast?_append, hlast]; rfl)
    rw [hblanks c (List.mem_of_getLast? hlast)] at hc
    cases hc

theorem says_branchOf (h : Text.IsTrimmed head) : Says head (branchOf head) := by
  by_cases hreference : referenceHead <+: head
  · obtain ⟨reference, rfl⟩ := hreference
    rw [branchOf_reference]
    cases hbranch : Text.dropHead? branchHead (Text.trim reference) with
    | none => exact .reference (Text.dropHead?_eq_none_iff.mp hbranch)
    | some name =>
      obtain ⟨before, after, haround, hbefore, hafter⟩ := Text.exists_blanks_around reference
      rw [Text.dropHead?_eq_some_iff.mp hbranch] at haround
      subst haround
      rw [← List.append_assoc before, ← List.append_assoc referenceHead] at h
      rw [eq_nil_of_isTrimmed hafter h, List.append_nil]
      exact .branch name hbefore
  · cases head with
    | nil => exact .nothing
    | cons c head =>
      rw [branchOf_commit (List.cons_ne_nil c head) hreference]
      exact .commit (List.cons_ne_nil c head) hreference

theorem branchOf_eq_iff (h : Text.IsTrimmed head) : branchOf head = shown ↔ Says head shown := by
  constructor
  · rintro rfl
    exact says_branchOf h
  · intro hsaid
    cases hsaid with
    | branch name hblanks =>
      rw [branchOf_reference, trim_branch hblanks h, Text.dropHead?_eq_some_iff.mpr rfl]
      rfl
    | reference hreference =>
      rw [branchOf_reference, Text.dropHead?_eq_none_iff.mpr hreference]
      rfl
    | commit hne hcommit => exact branchOf_commit hne hcommit
    | nothing => rfl

variable {tree : Tree} {directory git data : Location} {root : Path} {text pointer : Text}
  {bytes : Bytes} {time : Int}

theorem isName_gitName : Path.IsName gitName := ⟨by decide, by decide, by decide, by decide⟩

theorem isName_headName : Path.IsName headName := ⟨by decide, by decide, by decide, by decide⟩

/-- What a pointer file says: behind the head and blanks, the text of a path. -/
structure PointsTo (text pointer : Text) : Prop where
  written : ∃ blanks, (∀ c ∈ blanks, c.isBlank = true) ∧
    text.trim = pointerHead ++ (blanks ++ pointer)
  ne_nil : pointer ≠ []
  head : ∀ c ∈ pointer.head?, c.isBlank = false

theorem pointed?_eq (h : PointsTo text pointer) :
    pointed? (root.child gitName) text = some (root.join (Path.ofText pointer)) := by
  obtain ⟨blanks, hblanks, hwritten⟩ := h.written
  have htrimmed : Text.IsTrimmed pointer := by
    have htext := Text.isTrimmed_trim text
    rw [hwritten, ← List.append_assoc] at htext
    exact htext.of_append h.head
  have hparent : (root.child gitName).parent = root := by
    rw [Path.child_of_isName isName_gitName, Path.parent, List.dropLast_concat]
  rw [pointed?, Text.dropHead?_eq_some_iff.mpr hwritten, Option.map_some, hparent,
    Text.trim_blanks_append hblanks, htrimmed.trim_eq_self]

/-- At a root there is a file that points to a directory. -/
structure IsPointed (tree : Tree) (directory : Location) (root : Path) (git data : Location) :
    Prop where
  located : tree.locate directory (root.child gitName) = .ok git
  file : ∃ bytes time text pointer, tree.get? git = some (.file bytes time) ∧
    fileText? bytes = some text ∧ PointsTo text pointer ∧
    tree.locate directory (root.join (Path.ofText pointer)) = .ok data
  directory : tree.get? data = some .directory

/-- The data of the repository at a root is in a directory there, or where a file points to. -/
inductive HasDataAt (tree : Tree) (directory : Location) (root : Path) (data : Location) :
    Prop where
  | own (hlocated : tree.locate directory (root.child gitName) = .ok data)
      (hdirectory : tree.get? data = some .directory)
  | pointed {git : Location} (h : IsPointed tree directory root git data)

def branchIn : Option Entry → Except Breakdown (Option Text)
  | some (.file bytes _) =>
    match fileText? bytes with
    | none => .error .notUtf8
    | some text => .ok (branchOf text.trim)
  | _ => .ok none

theorem branch_of_gitDirectory {path : Path}
    (hpath : gitDirectory tree directory root = .ok (some path)) (hnull : path.hasNull = false)
    (hlocated : tree.locate directory path = .ok data)
    (hdirectory : tree.get? data = some .directory) :
    branch tree directory root = branchIn (tree.get? (data ++ [headName])) := by
  have hhead := Tree.locate_child isName_headName hlocated hdirectory
  rw [branch, hpath]
  simp only [hnull, Bool.false_eq_true, if_false, Tree.readBytes]
  cases hentry : tree.get? (data ++ [headName]) with
  | none =>
    have hstatus : tree.status directory (path.child headName) = .error .missing := by
      rw [Tree.status, hhead]
      simp only [hentry]
    rw [hstatus]
    rfl
  | some entry =>
    rw [Tree.status_of_locate hhead hentry]
    cases entry with
    | directory => rfl
    | file bytes time => rfl

theorem gitDirectory_of_file (hlocated : tree.locate directory (root.child gitName) = .ok git)
    (hfile : tree.get? git = some (.file bytes time)) (htext : fileText? bytes = some text) :
    gitDirectory tree directory root = .ok (pointed? (root.child gitName) text) := by
  rw [gitDirectory, Tree.status_of_locate hlocated hfile]
  simp only [htext]

theorem branch_of_own (hnull : (root.child gitName).hasNull = false)
    (hlocated : tree.locate directory (root.child gitName) = .ok data)
    (hdirectory : tree.get? data = some .directory) :
    branch tree directory root = branchIn (tree.get? (data ++ [headName])) := by
  have hpath : gitDirectory tree directory root = .ok (some (root.child gitName)) := by
    rw [gitDirectory, Tree.status_of_locate hlocated hdirectory]
  exact branch_of_gitDirectory hpath hnull hlocated hdirectory

theorem branch_of_isPointed (hnull : tree.HasNoNull) (h : IsPointed tree directory root git data) :
    branch tree directory root = branchIn (tree.get? (data ++ [headName])) := by
  obtain ⟨bytes, time, text, pointer, hfile, htext, hpointer, hdata⟩ := h.file
  have hpath := gitDirectory_of_file h.located hfile htext
  rw [pointed?_eq hpointer] at hpath
  have hsome : tree.get? data ≠ none := by simp [h.directory]
  exact branch_of_gitDirectory hpath (Tree.hasNull_eq_false hnull hdata hsome) hdata h.directory

theorem branch_eq (hnull : tree.HasNoNull) (h : HasDataAt tree directory root data) :
    branch tree directory root = branchIn (tree.get? (data ++ [headName])) := by
  cases h with
  | own hlocated hdirectory =>
    have hsome : tree.get? data ≠ none := by simp [hdirectory]
    exact branch_of_own (Tree.hasNull_eq_false hnull hlocated hsome) hlocated hdirectory
  | pointed h => exact branch_of_isPointed hnull h

def withData (tree : Tree) (git : Location) (head : Option Entry) : Tree :=
  let tree := tree.put git .directory
  match head with
  | none => tree.remove (git ++ [headName])
  | some entry => tree.put (git ++ [headName]) entry

theorem get?_withData (hgit : git ≠ []) (head : Option Entry) (at' : Location) :
    (withData tree git head).get? at' =
      if at' = git ++ [headName] then head
      else if at' = git then some .directory else tree.get? at' := by
  have hhead : git ++ [headName] ≠ [] := by simp
  cases head with
  | none => rw [withData, Tree.get?_remove _ hhead, Tree.get?_put _ hgit]
  | some entry => rw [withData, Tree.get?_put _ hhead, Tree.get?_put _ hgit]

theorem locate_withData (hrooted : tree.IsRooted)
    (hlocated : tree.locate directory (root.child gitName) = .ok git)
    (hfile : tree.get? git = some (.file bytes time)) (head : Option Entry) :
    (withData tree git head).locate directory (root.child gitName) = .ok git := by
  have hgit : git ≠ [] := Tree.ne_nil_of_file hfile
  refine Tree.walk_of_directories ?_ hlocated
  intro at' hdirectory
  rw [get?_withData hgit]
  -- A directory of the tree is not the file, and not below it either.
  have hbelow : at' ≠ git ++ [headName] := by
    rintro rfl
    have hparent := hrooted git headName (by simp [hdirectory])
    rw [hfile] at hparent
    cases hparent
  rw [if_neg hbelow, hdirectory, ite_self]

/-- Where a file pointed to data there is a directory with the same file in it. -/
structure IsReplaced (tree other : Tree) (directory : Location) (root : Path)
    (git data : Location) : Prop where
  located : other.locate directory (root.child gitName) = .ok git
  directory : other.get? git = some .directory
  head : other.get? (git ++ [headName]) = tree.get? (data ++ [headName])

theorem isReplaced_withData (hrooted : tree.IsRooted)
    (h : IsPointed tree directory root git data) :
    IsReplaced tree (withData tree git (tree.get? (data ++ [headName]))) directory root git
      data := by
  obtain ⟨bytes, time, text, pointer, hfile, -⟩ := h.file
  have hgit : git ≠ [] := Tree.ne_nil_of_file hfile
  constructor
  case located => exact locate_withData hrooted h.located hfile _
  case directory => rw [get?_withData hgit, if_neg (by simp), if_pos rfl]
  case head => rw [get?_withData hgit, if_pos rfl]

/-- Through a file one sees what one would see in a directory in its place. -/
theorem branch_of_isReplaced {other : Tree} (hnull : tree.HasNoNull)
    (h : IsPointed tree directory root git data)
    (hother : IsReplaced tree other directory root git data) :
    branch other directory root = branch tree directory root := by
  obtain ⟨bytes, time, text, pointer, hfile, -⟩ := h.file
  have hsome : tree.get? git ≠ none := by simp [hfile]
  rw [branch_of_own (Tree.hasNull_eq_false hnull h.located hsome) hother.located hother.directory,
    hother.head, branch_of_isPointed hnull h]

/-- The bytes of a file are those of a text; a directory has none. -/
def IsText : Entry → Prop
  | .directory => True
  | .file bytes _ => fileText? bytes ≠ none

instance (entry : Entry) : Decidable (IsText entry) :=
  match entry with
  | .directory => .isTrue trivial
  | .file bytes _ => inferInstanceAs (Decidable (fileText? bytes ≠ none))

/-- The files in a tree that may tell about a repository are texts. -/
def HasTexts (tree : Tree) : Prop :=
  ∀ name ∈ [gitName, headName], ∀ at' entry, tree.get? (at' ++ [name]) = some entry → IsText entry

theorem hasTexts_of_entries
    (h : ∀ entry ∈ tree.entries, IsText entry.2) : HasTexts tree := by
  intro name _ at' entry hentry
  exact h _ ((Tree.get?_eq_some_iff (by simp)).mp hentry)

theorem branchIn_file (htext : IsText (.file bytes time)) :
    ∃ text shown, fileText? bytes = some text ∧ branchIn (some (.file bytes time)) = .ok shown ∧
      ∀ other, Says text.trim other ↔ other = shown := by
  obtain ⟨text, htext⟩ := Option.ne_none_iff_exists'.mp htext
  refine ⟨text, branchOf text.trim, htext, by rw [branchIn, htext], ?_⟩
  intro other
  rw [← branchOf_eq_iff (Text.isTrimmed_trim text), eq_comm]

theorem branch_of_not_exists (h : tree.exists? directory (root.child gitName) = false) :
    branch tree directory root = .ok none := by
  have hpath : gitDirectory tree directory root = .ok none := by
    rw [Tree.exists?] at h
    rw [gitDirectory]
    split at h
    · cases h
    next refusal hstatus => rw [hstatus]
  rw [branch, hpath]

theorem branch_of_not_pointer (htexts : HasTexts tree)
    (hlocated : tree.locate directory (root.child gitName) = .ok git)
    (hfile : tree.get? git = some (.file bytes time))
    (hother : ∀ text, fileText? bytes = some text → ¬ pointerHead <+: text.trim) :
    branch tree directory root = .ok none := by
  obtain ⟨place, -, -, rfl⟩ := Tree.exists_of_locate_child isName_gitName hlocated
  obtain ⟨text, htext⟩ :=
    Option.ne_none_iff_exists'.mp (htexts gitName List.mem_cons_self place _ hfile)
  have hpath := gitDirectory_of_file hlocated hfile htext
  rw [pointed?, Text.dropHead?_eq_none_iff.mpr (hother text htext), Option.map_none] at hpath
  rw [branch, hpath]

/--
In every file tree whose files of these names are texts, the branch of a root is read where its
data is, be it in a directory of the root or in one that a file there points to. A file that points
to a directory leads to what a directory in its place would give that has the same file with what
is checked out. If this is a file, then what is checked out is what its trimmed text says, in the
one way that it can be read: a branch by its name, another reference in full, and a commit by its
first seven characters. Otherwise nothing is checked out, and nothing is either if the root has no
data or has a file that does not begin as a pointer.
-/
theorem branch_through_pointers {tree : Tree} (hrooted : tree.IsRooted) (hnull : tree.HasNoNull)
    (htexts : HasTexts tree) (directory : Location) (root : Path) :
    (∀ git data, IsPointed tree directory root git data →
      IsReplaced tree (withData tree git (tree.get? (data ++ [headName]))) directory root git data ∧
      ∀ other, IsReplaced tree other directory root git data →
        branch tree directory root = branch other directory root) ∧
    (∀ data, HasDataAt tree directory root data →
      (∀ bytes time, tree.get? (data ++ [headName]) = some (.file bytes time) →
        ∃ text shown, fileText? bytes = some text ∧ branch tree directory root = .ok shown ∧
          ∀ other, Says text.trim other ↔ other = shown) ∧
      (tree.get? (data ++ [headName]) = none ∨ tree.get? (data ++ [headName]) = some .directory →
        branch tree directory root = .ok none)) ∧
    (tree.exists? directory (root.child gitName) = false →
      branch tree directory root = .ok none) ∧
    ∀ git bytes time, tree.locate directory (root.child gitName) = .ok git →
      tree.get? git = some (.file bytes time) →
      (∀ text, fileText? bytes = some text → ¬ pointerHead <+: text.trim) →
        branch tree directory root = .ok none := by
  refine ⟨?pointed, ?data, branch_of_not_exists, ?other⟩
  case pointed =>
    intro git data h
    refine ⟨isReplaced_withData hrooted h, ?_⟩
    intro other hother
    exact (branch_of_isReplaced hnull h hother).symm
  case data =>
    intro data h
    rw [branch_eq hnull h]
    constructor
    · intro bytes time hhead
      rw [hhead]
      exact branchIn_file (htexts headName (by simp) data _ hhead)
    · rintro (hhead | hhead) <;> rw [hhead] <;> rfl
  case other =>
    intro git bytes time hlocated hfile hother
    exact branch_of_not_pointer htexts hlocated hfile hother

/-- The pointer goes up twice, and the name of the branch looks like a reference itself. -/
theorem branch_through_pointers_reference_in_name :
    let headBytes := Utf8.encode "ref: refs/heads/ref:refs/heads/x\n".toList
    let gitBytes := Utf8.encode "gitdir:  ../../d\n".toList
    let tree : Tree := ⟨[(["d"], .directory), (["d", headName], .file headBytes 0),
      (["r"], .directory), (["r", "s"], .directory), (["r", "s", gitName], .file gitBytes 0)],
      by decide +kernel⟩
    let root := Path.ofText "/r/s"
    (tree.IsRooted ∧ tree.HasNoNull ∧ HasTexts tree) ∧
    IsPointed tree [] root ["r", "s", gitName] ["d"] ∧
    branch tree [] root = .ok (some "ref:refs/heads/x") ∧
    branch (withData tree ["r", "s", gitName] (some (.file headBytes 0))) [] root =
      .ok (some "ref:refs/heads/x") ∧
    branch tree [] (Path.ofText "/r") = .ok none := by
  intro headBytes gitBytes tree root
  have hrooted : tree.IsRooted := Tree.isRooted_iff.mpr (by decide +kernel)
  have hnull : tree.HasNoNull := Tree.hasNoNull_iff.mpr (by decide +kernel)
  have htexts : HasTexts tree := hasTexts_of_entries (by decide +kernel)
  have hpointer : PointsTo "gitdir:  ../../d\n" "../../d" :=
    ⟨⟨"  ", by decide, by decide⟩, by decide, by decide⟩
  have hpointed : IsPointed tree [] root ["r", "s", gitName] ["d"] := by
    constructor
    case located => decide +kernel
    case file =>
      exact ⟨gitBytes, 0, _, _, by decide +kernel, by decide +kernel, hpointer, by decide +kernel⟩
    case directory => decide +kernel
  have hhead : tree.get? ((["d"] : Location) ++ [headName]) = some (.file headBytes 0) := by
    decide +kernel
  obtain ⟨hreplaced, hdata, -, -⟩ := branch_through_pointers hrooted hnull htexts [] root
  obtain ⟨text, shown, htext, hbranch, hsaid⟩ :=
    (hdata ["d"] (.pointed hpointed)).1 headBytes 0 hhead
  have htrim : text.trim = "ref: refs/heads/ref:refs/heads/x" := by
    have hread : fileText? headBytes = some ("ref: refs/heads/ref:refs/heads/x\n" : Text) := by
      decide +kernel
    rw [hread] at htext
    cases htext
    decide
  have hshown : some ("ref:refs/heads/x" : Text) = shown := by
    refine (hsaid _).mp ?_
    rw [htrim]
    have hblanks : ∀ c ∈ (" " : Text), c.isBlank = true := by decide
    exact .branch "ref:refs/heads/x" hblanks
  subst hshown
  obtain ⟨hown, hsame⟩ := hreplaced _ _ hpointed
  refine ⟨⟨hrooted, hnull, htexts⟩, hpointed, hbranch, ?_, ?_⟩
  · rw [← hbranch, ← hhead]
    exact (hsame _ hown).symm
  · exact (branch_through_pointers hrooted hnull htexts [] (Path.ofText "/r")).2.2.1
      (by decide +kernel)

/-- A reference to a branch without name is no short text: the name is shown, which is empty. -/
theorem not_forall_short_branch :
    ¬ ∀ (tree : Tree) (directory : Location) (root : Path) (data : Location) (bytes : Bytes)
        (time : Int) (text : Text),
      HasDataAt tree directory root data →
      tree.get? (data ++ [headName]) = some (.file bytes time) → fileText? bytes = some text →
      text.trim ≠ [] →
      (∀ blanks name : Text, (∀ c ∈ blanks, c.isBlank = true) → name ≠ [] →
        Text.IsTrimmed name → text.trim ≠ referenceHead ++ (blanks ++ (branchHead ++ name))) →
      (∀ reference, text.trim = referenceHead ++ reference → branchHead <+: reference.trim) →
        branch tree directory root = .ok (some (text.trim.take shortLength)) := by
  intro h
  let text : Text := "ref: refs/heads/\n"
  let bytes := Utf8.encode "ref: refs/heads/\n".toList
  let tree : Tree := ⟨[(["r"], .directory), (["r", gitName], .directory),
    (["r", gitName, headName], .file bytes 0)], by decide +kernel⟩
  have hblanks : ∀ c ∈ (" " : Text), c.isBlank = true := by decide
  have hnameless : text.trim = referenceHead ++ ((" " : Text) ++ (branchHead ++ [])) := by decide
  have hbranch := h tree [] (Path.ofText "/r") ["r", gitName] bytes 0 text
    (.own (by decide +kernel) (by decide +kernel)) (by decide +kernel) (by decide +kernel)
    (by decide) ?name ?reference
  case name =>
    intro blanks name hother hne _ hnamed
    have hsaid : Says text.trim (some name) := hnamed ▸ .branch name hother
    have hempty : Says text.trim (some []) := hnameless ▸ .branch [] hblanks
    rw [← branchOf_eq_iff (Text.isTrimmed_trim text)] at hsaid hempty
    rw [hsaid] at hempty
    exact hne (Option.some.inj hempty)
  case reference =>
    intro reference hreference
    rw [hnameless] at hreference
    rw [← List.append_cancel_left hreference]
    decide
  have hshown : branch tree [] (Path.ofText "/r") = .ok (some []) := by decide +kernel
  rw [hshown] at hbranch
  revert hbranch
  decide

end Repository

end ShellPrompt
