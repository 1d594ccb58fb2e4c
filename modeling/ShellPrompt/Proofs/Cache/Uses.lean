import ShellPrompt.Proofs.Cache.Contents
import ShellPrompt.Proofs.Cache.Recall
/-!
A color cache whose directory holds anything. A use of a root either succeeds, and then changes no
more than the root's file and the files used longest ago, or it fails and changes nothing. Main
statement: `colorIndex_withstands`.
-/

set_option autoImplicit false

namespace ShellPrompt

namespace ColorCache

variable {cache : ColorCache} {environment : Environment} {location : Location} {tree : Tree}
  {root name : Text} {index : Nat} {time : Int}

/--
What becomes of a tree when a root is used at a time and has an index. The root's file holds the
index and no other file was used as late; every other place is as it was, or was a file of the
cache and is free.
-/
structure Uses (cache : ColorCache) (environment : Environment) (location : Location)
    (root name : Text) (time : Int) (index : Nat) (tree after : Tree) : Prop where
  lt_size : index < 14
  read : read? after environment.directory (cache.filePath name) = some index
  used : (name, time) ∈ filesAt after location
  last : ∀ file ∈ filesAt after location, file ≠ (name, time) → file.2 < time
  again : ∀ later, (cache.colorIndex environment root later after).answer = .ok index
  others : ∀ at', at' ≠ location ++ [name] → after.get? at' = tree.get? at' ∨
    after.get? at' = none ∧ ∃ file ∈ filesAt tree location, at' = location ++ [file.1]
  /-- A root that had an index keeps it, and nothing is removed. -/
  renewed : ∀ known,
    read? tree environment.directory (cache.filePath name) = some known →
      index = known ∧ ∀ at', at' ≠ location ++ [name] → after.get? at' = tree.get? at'
  /-- A root that had none leaves no more files than the cache keeps. -/
  bounded : read? tree environment.directory (cache.filePath name) = none →
    (filesAt after location).length ≤ cache.capacity
  oldest : ∀ removed ∈ filesAt tree location, after.get? (location ++ [removed.1]) = none →
    ∀ kept ∈ filesAt after location, precedes removed kept = false

theorem mem_filesAt_put {bytes : Bytes} {file : Text × Int} :
    file ∈ filesAt (tree.put (location ++ [name]) (.file bytes time)) location ↔
      file = (name, time) ∨ file.1 ≠ name ∧ file ∈ filesAt tree location := by
  obtain ⟨other, used⟩ := file
  rw [mem_filesAt_iff, mem_filesAt_iff, Tree.get?_put tree (by simp)]
  by_cases hname : other = name
  · simp [hname, eq_comm]
  · simp [hname]

theorem last_of_put {bytes : Bytes} (htime : ∀ file ∈ filesAt tree location, file.2 < time) :
    ∀ file ∈ filesAt (tree.put (location ++ [name]) (.file bytes time)) location,
      file ≠ (name, time) → file.2 < time := by
  intro file hfile hne
  obtain ⟨-, hfile⟩ := (mem_filesAt_put.mp hfile).resolve_left hne
  exact htime file hfile

section Use

variable (hname : fileName environment root = .ok name)
  (h : cache.Opens environment.directory location tree)

include hname h

theorem answer_of_file {bytes : Bytes} {used : Int}
    (hfile : tree.get? (location ++ [name]) = some (.file bytes used))
    (hindex : indexIn? bytes = some index) (later : Int) :
    (cache.colorIndex environment root later tree).answer = .ok index :=
  (colorIndex_of_read?_eq_some hname h hfile hindex later).1

variable (htime : ∀ file ∈ filesAt tree location, file.2 < time)

include htime

theorem uses_of_read?_eq_some
    (hread : read? tree environment.directory (cache.filePath name) = some index) :
    (cache.colorIndex environment root time tree).answer = .ok index ∧
      Uses cache environment location root name time index tree
        (cache.colorIndex environment root time tree).tree := by
  have hplain := isName_of_fileName hname
  obtain ⟨other, bytes, used, hopens, hfile, hindex⟩ := exists_of_read?_eq_some hplain hread
  have hsame : other = location := by
    have hlocated := hopens.located.symm.trans h.located
    injection hlocated
  subst hsame
  obtain ⟨hanswer, htree⟩ := colorIndex_of_read?_eq_some hname h hfile hindex time
  refine ⟨hanswer, ?_⟩
  rw [htree]
  have hput : ∀ at', (tree.put (other ++ [name]) (.file bytes time)).get? at' =
      if at' = other ++ [name] then some (.file bytes time) else tree.get? at' :=
    Tree.get?_put tree (by simp) _
  have hafter : cache.Opens environment.directory other
      (tree.put (other ++ [name]) (.file bytes time)) :=
    h.put bytes time (by simp [hfile])
  have hown : (tree.put (other ++ [name]) (.file bytes time)).get?
      (other ++ [name]) = some (.file bytes time) := by
    rw [hput, if_pos rfl]
  have hothers : ∀ at', at' ≠ other ++ [name] →
      (tree.put (other ++ [name]) (.file bytes time)).get? at' = tree.get? at' := by
    intro at' hat
    rw [hput, if_neg hat]
  constructor
  case lt_size => exact lt_size_of_indexIn? hindex
  case read => rw [hafter.read?_of_file hplain hown, hindex]
  case used => exact mem_filesAt_put.mpr (Or.inl rfl)
  case last => exact last_of_put htime
  case again => exact answer_of_file hname hafter hown hindex
  case others => exact fun at' hat => Or.inl (hothers at' hat)
  case renewed =>
    intro known hknown
    rw [hread] at hknown
    cases hknown
    exact ⟨rfl, hothers⟩
  case bounded =>
    intro hnone
    rw [hread] at hnone
    cases hnone
  case oldest =>
    intro removed hremoved hgone
    obtain ⟨others, hget⟩ := mem_filesAt_iff.mp hremoved
    rw [hput, hget] at hgone
    split at hgone <;> cases hgone

theorem exists_uses_of_read?_eq_none (hcapacity : 1 ≤ cache.capacity) (hnamed : tree.IsNamed)
    (hfree : tree.get? (location ++ [name]) ≠ some .directory)
    (hread : read? tree environment.directory (cache.filePath name) = none) :
    ∃ index, (cache.colorIndex environment root time tree).answer = .ok index ∧
      Uses cache environment location root name time index tree
        (cache.colorIndex environment root time tree).tree := by
  have hplain := isName_of_fileName hname
  obtain ⟨count, hcount⟩ := Int.eq_ofNat_of_zero_le (Int.le_trans (by decide) hcapacity)
  obtain ⟨index, bytes, hsize, hindex, hanswer, hafter, hevicted⟩ :=
    colorIndex_of_read?_eq_none hname h hfree hnamed hread hcount time
  refine ⟨index, hanswer, ?_⟩
  generalize (cache.colorIndex environment root time tree).tree = after at hafter hevicted
  have hput : ∀ at', (tree.put (location ++ [name]) (.file bytes time)).get? at' =
      if at' = location ++ [name] then some (.file bytes time) else tree.get? at' :=
    Tree.get?_put tree (by simp) _
  have hlast : ∀ file ∈ filesAt (tree.put (location ++ [name]) (.file bytes time)) location,
      file ≠ (name, time) → file.2 < time := last_of_put htime
  have hused : (name, time) ∈
      filesAt (tree.put (location ++ [name]) (.file bytes time)) location :=
    mem_filesAt_put.mpr (Or.inl rfl)
  -- The file just written is the first of the listing, so it stays.
  have hkept := not_mem_drop_listing (show 1 ≤ count by omega) hlast
  have hown : after.get? (location ++ [name]) = some (.file bytes time) := by
    rw [hevicted.get?_of_not_mem_drop hused hkept, hput, if_pos rfl]
  have hlisted : ∀ file ∈ filesAt after location,
      file ∈ (listing (tree.put (location ++ [name]) (.file bytes time)) location).take
        count := fun file hfile => hevicted.mem_take hfile
  constructor
  case lt_size => exact hsize
  case read => rw [hafter.read?_of_file hplain hown, hindex]
  case used => exact mem_filesAt_iff.mpr ⟨bytes, hown⟩
  case last =>
    intro file hfile
    exact hlast file (mem_listing_iff.mp (List.mem_of_mem_take (hlisted file hfile)))
  case again => exact answer_of_file hname hafter hown hindex
  case others =>
    intro at' hat
    rw [hevicted at', hput, if_neg hat]
    split
    next hremoved =>
      obtain ⟨file, hdrop, rfl⟩ := List.mem_map.mp hremoved
      have hfile := mem_filesAt_put.mp (mem_listing_iff.mp (List.mem_of_mem_drop hdrop))
      have hne : file ≠ (name, time) := by
        rintro rfl
        exact hat rfl
      exact Or.inr ⟨rfl, file, (hfile.resolve_left hne).2, rfl⟩
    next => exact Or.inl rfl
  case renewed =>
    intro known hknown
    rw [hread] at hknown
    cases hknown
  case bounded =>
    intro _
    rw [hcount]
    exact Int.ofNat_le.mpr hevicted.length_le
  case oldest =>
    intro removed hremoved hgone kept hfile
    have hne : removed.1 ≠ name := by
      intro hsame
      rw [hsame, hown] at hgone
      cases hgone
    have hwritten : removed ∈
        filesAt (tree.put (location ++ [name]) (.file bytes time)) location :=
      mem_filesAt_put.mpr (Or.inr ⟨hne, hremoved⟩)
    have hdrop := hevicted.mem_drop hwritten hgone
    exact (precedes_of_mem_take_of_mem_drop (hlisted kept hfile) hdrop).2

end Use

/--
Whatever the cache's directory holds, a use of an absolute root that a file can be named after
answers an index, keeps it, and removes only the files used longest ago; or there is no directory or
a directory in the file's place, and the use fails and leaves the tree as it was. A use of any other
absolute root breaks down, and leaves the tree as it was too.
-/
theorem colorIndex_withstands (habsolute : (Path.ofText root).isAbsolute = true)
    (hcapacity : 1 ≤ cache.capacity) (hnamed : tree.IsNamed)
    (htime : ∀ at' bytes used, tree.get? at' = some (.file bytes used) → used < time) :
    let outcome := cache.colorIndex environment root time tree
    ((∀ cause, ¬ IsUnnamable root cause) →
      ∃ name, digest? ((Path.ofText root).resolve []) = some name ∧
        (∀ location, cache.Opens environment.directory location tree →
          tree.get? (location ++ [name]) ≠ some .directory →
          ∃ index, outcome.answer = .ok index ∧
            Uses cache environment location root name time index tree outcome.tree) ∧
        ((∀ location, cache.Opens environment.directory location tree →
            tree.get? (location ++ [name]) = some .directory) →
          ∃ e, outcome.answer = .error (.configuration e) ∧ outcome.tree = tree)) ∧
      ∀ cause, IsUnnamable root cause →
        outcome.answer = .error (.breakdown cause) ∧ outcome.tree = tree := by
  refine ⟨?_, ?_⟩
  · intro hnamable
    have hplace := rootPlace_of_isAbsolute habsolute hnamable environment
    have hname := fileName_of_rootPlace hplace
    refine ⟨_, digest?_of_rootPlace hplace, ?_, ?_⟩
    · intro location hopens hfree
      have hfiles : ∀ file ∈ filesAt tree location, file.2 < time := by
        intro file hfile
        obtain ⟨bytes, hget⟩ := mem_filesAt_iff.mp hfile
        exact htime _ bytes file.2 hget
      cases hread : read? tree environment.directory (cache.filePath (digestOf _)) with
      | some index => exact ⟨index, uses_of_read?_eq_some hname hopens hfiles hread⟩
      | none =>
        exact exists_uses_of_read?_eq_none hname hopens hfiles hcapacity hnamed hfree hread
    · intro hclosed
      exact colorIndex_of_not_opens hname hclosed
  · intro cause hunnamable
    have hname : fileName environment root = .error cause :=
      (fileName_eq_error_iff habsolute).mpr hunnamable
    simp only [colorIndex, hname]
    trivial

/-- Files that no cache wrote, one of them in the place of `/a`, and a directory beside them. -/
def crowded : Tree :=
  ⟨[([("colors" : Text)], .directory), ([("colors" : Text), digestOf ["a"]], .file [0xFF] 4),
    ([("colors" : Text), ("junk" : Text)], .file [0x39, 0x39] 7),
    ([("colors" : Text), ("old" : Text)], .file [0x33, 0x0A] 1),
    ([("colors" : Text), ("sub" : Text)], .directory)], by decide +kernel⟩

theorem fileName_a : fileName bare "/a" = .ok (digestOf ["a"]) := by
  decide +kernel

theorem isNamed_crowded : crowded.IsNamed := by
  intro at' name hget
  obtain ⟨entry, hentry⟩ := Option.ne_none_iff_exists'.mp hget
  have hmem := (Tree.get?_eq_some_iff (by simp)).mp hentry
  have hlast : name ∈ crowded.entries.filterMap fun entry => entry.1.getLast? :=
    List.mem_filterMap.mpr ⟨_, hmem, by simp⟩
  have hnames : crowded.entries.filterMap (fun entry => entry.1.getLast?) =
      [("colors" : Text), digestOf ["a"], ("junk" : Text), ("old" : Text), ("sub" : Text)] := by
    simp [crowded]
  rw [hnames] at hlast
  have hplain : ∀ name ∈ ([("colors" : Text), ("junk" : Text), ("old" : Text), ("sub" : Text)]),
      name ≠ [] ∧ CodePoint.ofChar '/' ∉ name ∧ name ≠ Path.here ∧ name ≠ Path.up := by decide
  by_cases hown : name = digestOf ["a"]
  · rw [hown]
    exact isName_of_fileName fileName_a
  · have hmem : name ∈ ([("colors" : Text), ("junk" : Text), ("old" : Text), ("sub" : Text)]) := by
      simpa [hown] using hlast
    obtain ⟨hne, hslash, hhere, hup⟩ := hplain name hmem
    exact ⟨hne, hslash, hhere, hup⟩

theorem times_crowded {at' : Location} {bytes : Bytes} {used : Int}
    (h : crowded.get? at' = some (.file bytes used)) : used < 10 := by
  have hne : at' ≠ [] := by
    rintro rfl
    cases h
  have hmem := (Tree.get?_eq_some_iff hne).mp h
  have htimes : ∀ entry ∈ crowded.entries, ∀ bytes used, entry.2 = .file bytes used →
      used < 10 := by
    simp [crowded]
  exact htimes _ hmem bytes used rfl

theorem colorIndex_withstands_crowded :
    let outcome := (colors 2).colorIndex bare "/a" 10 crowded
    ∃ name index, digest? [("a" : Text)] = some name ∧ outcome.answer = .ok index ∧
      Uses (colors 2) bare [("colors" : Text)] "/a" name 10 index crowded outcome.tree := by
  have habsolute : (Path.ofText "/a").isAbsolute = true := by decide
  have hnamable : ∀ cause, ¬ IsUnnamable "/a" cause := by
    intro cause hunnamable
    have hname : fileName bare "/a" = .error cause :=
      (fileName_eq_error_iff habsolute).mpr hunnamable
    rw [fileName_a] at hname
    cases hname
  have hopens : (colors 2).Opens bare.directory [("colors" : Text)] crowded :=
    ⟨by decide +kernel, by decide +kernel⟩
  have hfree : crowded.get? ([("colors" : Text)] ++ [digestOf ["a"]]) ≠ some .directory := by
    decide +kernel
  have hcapacity : 1 ≤ (colors 2).capacity := by decide
  obtain ⟨name, hdigest, hused, -⟩ := (colorIndex_withstands habsolute hcapacity isNamed_crowded
    fun _ _ _ hfile => times_crowded hfile).1 hnamable
  have hsame : name = digestOf ["a"] := by
    rw [digestOf, show digest? [("a" : Text)] = some name from hdigest]
    rfl
  obtain ⟨index, hanswer, huses⟩ := hused _ hopens (hsame ▸ hfree)
  exact ⟨name, index, hdigest, hanswer, huses⟩

/--
Not every use of an absolute root answers an index or fails with a report: the name of a directory
may have a byte that is not UTF-8.
-/
theorem not_forall_colorIndex_withstands :
    ¬ ∀ (cache : ColorCache) (environment : Environment) (root : Text) (time : Int) (tree : Tree),
      (Path.ofText root).isAbsolute = true → 1 ≤ cache.capacity → tree.IsNamed →
      (∀ at' bytes used, tree.get? at' = some (.file bytes used) → used < time) →
        (∃ index, (cache.colorIndex environment root time tree).answer = .ok index) ∨
          ∃ e, (cache.colorIndex environment root time tree).answer =
            .error (.configuration e) := by
  intro h
  have hanswer : ((colors 10).colorIndex bare ['/', CodePoint.ofNat 0xDCFF] 10 crowded).answer =
      .error (.breakdown .surrogateInPath) := by decide +kernel
  obtain ⟨index, hindex⟩ | ⟨e, hreport⟩ := h (colors 10) bare ['/', CodePoint.ofNat 0xDCFF] 10
    crowded (by decide) (by decide) isNamed_crowded fun _ _ _ hfile => times_crowded hfile
  · rw [hanswer] at hindex
    cases hindex
  · rw [hanswer] at hreport
    cases hreport

end ColorCache

end ShellPrompt
