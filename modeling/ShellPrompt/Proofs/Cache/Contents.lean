import ShellPrompt.Proofs.Cache.Files
/-!
The operations of a color cache in a directory that may hold anything: files that no cache wrote,
directories, and more files than it keeps. Each is said by what it leaves at every location of the
tree.
-/

set_option autoImplicit false

namespace ShellPrompt

namespace ColorCache

/-- The cache's path leads to a directory at a location. -/
structure Opens (cache : ColorCache) (place location : Location) (tree : Tree) : Prop where
  located : tree.locate place cache.directory = .ok location
  directory : tree.get? location = some .directory

/-- The second tree is the first without its files beyond a count, in the order of the listing. -/
def Evicted (count : Nat) (location : Location) (tree after : Tree) : Prop :=
  ∀ at', after.get? at' =
    if at' ∈ ((listing tree location).drop count).map fun file => location ++ [file.1] then none
    else tree.get? at'

variable {cache : ColorCache} {environment : Environment} {place location : Location}
  {tree : Tree} {root name : Text} {index count : Nat} {time : Int}

namespace Opens

theorem of_directories (h : cache.Opens place location tree) {after : Tree}
    (hsame : ∀ at', tree.get? at' = some .directory → after.get? at' = some .directory) :
    cache.Opens place location after :=
  ⟨Tree.walk_of_directories hsame h.located, hsame location h.directory⟩

theorem put (h : cache.Opens place location tree) (bytes : Bytes) (time : Int)
    (hfree : tree.get? (location ++ [name]) ≠ some .directory) :
    cache.Opens place location (tree.put (location ++ [name]) (.file bytes time)) := by
  refine h.of_directories ?_
  intro at' hat
  have hne : at' ≠ location ++ [name] := by
    rintro rfl
    exact hfree hat
  rw [Tree.get?_put tree (by simp), if_neg hne, hat]

theorem remove (h : cache.Opens place location tree)
    (hfree : tree.get? (location ++ [name]) ≠ some .directory) :
    cache.Opens place location (tree.remove (location ++ [name])) := by
  refine h.of_directories ?_
  intro at' hat
  have hne : at' ≠ location ++ [name] := by
    rintro rfl
    exact hfree hat
  rw [Tree.get?_remove tree (by simp), if_neg hne, hat]

theorem names_eq (h : cache.Opens place location tree) :
    cache.names place tree = .ok ((listing tree location).map Prod.fst) := by
  simp only [ColorCache.names, h.located, h.directory]
  rfl

theorem locate_filePath (h : cache.Opens place location tree) (hname : Path.IsName name) :
    tree.locate place (cache.filePath name) = .ok (location ++ [name]) :=
  Tree.locate_child hname h.located h.directory

theorem read?_of_file (h : cache.Opens place location tree) (hname : Path.IsName name)
    {bytes : Bytes} {used : Int}
    (hfile : tree.get? (location ++ [name]) = some (.file bytes used)) :
    read? tree place (cache.filePath name) = indexIn? bytes := by
  simp only [read?, Tree.readBytes, Tree.status, h.locate_filePath hname, hfile]
  rfl

theorem get?_removeFiles (h : cache.Opens place location tree) {names : List Text}
    (hnames : ∀ name ∈ names, Path.IsName name)
    (hfree : ∀ name ∈ names, tree.get? (location ++ [name]) ≠ some .directory)
    (at' : Location) :
    (cache.removeFiles place names tree).get? at' =
      if at' ∈ names.map fun name => location ++ [name] then none else tree.get? at' := by
  induction names generalizing tree with
  | nil => simp [removeFiles]
  | cons name names ih =>
    rw [List.forall_mem_cons] at hnames hfree
    have hroot : location ++ [name] ≠ [] := by simp
    have hleft : ∀ other ∈ names,
        (tree.remove (location ++ [name])).get? (location ++ [other]) ≠ some .directory := by
      intro other hother
      rw [Tree.get?_remove tree hroot]
      split
      · simp
      · exact hfree.2 other hother
    have hnext := ih (h.remove hfree.1) hnames.2 hleft
    have hfirst : cache.removeFiles place (name :: names) tree =
        cache.removeFiles place names (tree.remove (location ++ [name])) := by
      simp only [removeFiles, List.foldl_cons, h.locate_filePath hnames.1]
    rw [hfirst, hnext, Tree.get?_remove tree hroot, List.map_cons]
    by_cases hat : at' = location ++ [name]
    · simp [hat]
    · simp [hat]

theorem evict (h : cache.Opens place location tree) (hnamed : tree.IsNamed)
    (hcapacity : cache.capacity = count) :
    ∃ notes, (cache.evict place tree).1 = .ok notes ∧
      cache.Opens place location (cache.evict place tree).2 ∧
      Evicted count location tree (cache.evict place tree).2 := by
  have hfiles : ∀ file ∈ (listing tree location).drop count,
      ∃ bytes, tree.get? (location ++ [file.1]) = some (.file bytes file.2) :=
    fun file hfile => mem_filesAt_iff.mp (mem_listing_iff.mp (List.mem_of_mem_drop hfile))
  have hnames : ∀ name ∈ ((listing tree location).drop count).map Prod.fst,
      Path.IsName name := by
    intro name hname
    obtain ⟨file, hfile, rfl⟩ := List.mem_map.mp hname
    obtain ⟨bytes, hget⟩ := hfiles file hfile
    exact hnamed location file.1 (by simp [hget])
  have hfree : ∀ name ∈ ((listing tree location).drop count).map Prod.fst,
      tree.get? (location ++ [name]) ≠ some .directory := by
    intro name hname
    obtain ⟨file, hfile, rfl⟩ := List.mem_map.mp hname
    obtain ⟨bytes, hget⟩ := hfiles file hfile
    simp [hget]
  have hafter : Evicted count location tree
      (cache.removeFiles place (((listing tree location).drop count).map Prod.fst) tree) := by
    intro at'
    rw [h.get?_removeFiles hnames hfree, List.map_map]
    rfl
  simp only [ColorCache.evict, h.names_eq, hcapacity, startingAt_natCast, ← List.map_drop]
  refine ⟨_, rfl, h.of_directories ?_, hafter⟩
  intro at' hat
  rw [hafter at', if_neg ?_, hat]
  intro hremoved
  obtain ⟨file, hfile, rfl⟩ := List.mem_map.mp hremoved
  obtain ⟨bytes, hget⟩ := hfiles file hfile
  rw [hget] at hat
  cases hat

end Opens

theorem exists_of_read?_eq_some (hname : Path.IsName name)
    (hread : read? tree place (cache.filePath name) = some index) :
    ∃ location bytes used, cache.Opens place location tree ∧
      tree.get? (location ++ [name]) = some (.file bytes used) ∧ indexIn? bytes = some index := by
  rw [read?, Tree.readBytes, Tree.status] at hread
  cases hlocated : tree.locate place (cache.filePath name) with
  | error refusal =>
    rw [hlocated] at hread
    cases hread
  | ok at' =>
    obtain ⟨location, hlocation, hdirectory, rfl⟩ := Tree.exists_of_locate_child hname hlocated
    rw [hlocated] at hread
    cases hget : tree.get? (location ++ [name]) with
    | none => simp [hget] at hread
    | some entry =>
      cases entry with
      | directory => simp [hget] at hread
      | file bytes used =>
        simp only [hget] at hread
        exact ⟨location, bytes, used, ⟨hlocation, hdirectory⟩, hget, hread⟩

theorem colorIndex_of_read?_eq_some (hfileName : fileName environment root = .ok name)
    (h : cache.Opens environment.directory location tree) {bytes : Bytes} {used : Int}
    (hfile : tree.get? (location ++ [name]) = some (.file bytes used))
    (hindex : indexIn? bytes = some index) (time : Int) :
    (cache.colorIndex environment root time tree).answer = .ok index ∧
      (cache.colorIndex environment root time tree).tree =
        tree.put (location ++ [name]) (.file bytes time) := by
  have hname := isName_of_fileName hfileName
  have hread : read? tree environment.directory (cache.filePath name) = some index := by
    rw [h.read?_of_file hname hfile, hindex]
  have htouch : tree.touch environment.directory (cache.filePath name) time =
      .ok (tree.put (location ++ [name]) (.file bytes time)) := by
    simp only [Tree.touch, h.locate_filePath hname, hfile]
  simp only [colorIndex, hfileName, hread, renew, htouch]
  trivial

theorem colorIndex_of_read?_eq_none (hfileName : fileName environment root = .ok name)
    (h : cache.Opens environment.directory location tree)
    (hfree : tree.get? (location ++ [name]) ≠ some .directory) (hnamed : tree.IsNamed)
    (hread : read? tree environment.directory (cache.filePath name) = none)
    (hcapacity : cache.capacity = count) (time : Int) :
    ∃ index bytes, index < 14 ∧ indexIn? bytes = some index ∧
      (cache.colorIndex environment root time tree).answer = .ok index ∧
      cache.Opens environment.directory location
        (cache.colorIndex environment root time tree).tree ∧
      Evicted count location (tree.put (location ++ [name]) (.file bytes time))
        (cache.colorIndex environment root time tree).tree := by
  have hname := isName_of_fileName hfileName
  obtain ⟨history, hhistory⟩ : ∃ history,
      cache.history environment.directory tree = .ok history := by
    rw [ColorCache.history, h.names_eq]
    exact ⟨_, rfl⟩
  have hsize := Palette.pick_lt_size (history.map Int.ofNat)
  set index := Palette.pick (history.map Int.ofNat) with hindex
  set bytes := Utf8.encode (Nat.toDigits 10 index ++ ['\n']) with hbytes
  have hwrite : tree.writeBytes environment.directory (cache.filePath name) bytes time =
      .ok (tree.put (location ++ [name]) (.file bytes time)) := by
    simp only [Tree.writeBytes, h.locate_filePath hname]
  have hwritten : (tree.put (location ++ [name]) (.file bytes time)).IsNamed := by
    intro at' other hother
    rw [Tree.get?_put tree (by simp)] at hother
    split at hother
    next hsame =>
      have hlast : other = name := by simpa using congrArg List.getLast? hsame
      rw [hlast]
      exact hname
    next => exact hnamed at' other hother
  obtain ⟨notes, hnotes, hevict⟩ := (h.put bytes time hfree).evict hwritten hcapacity
  refine ⟨index, bytes, hsize, indexIn?_encode hsize, ?_⟩
  simp only [colorIndex, hfileName, hread, assign, hhistory, ← hindex, ← hbytes, hwrite]
  generalize cache.evict environment.directory (tree.put (location ++ [name]) (.file bytes time)) =
    evicted at hnotes hevict
  obtain ⟨result, after⟩ := evicted
  cases hnotes
  exact ⟨rfl, hevict⟩

theorem lt_size_of_indexOf? {contents : Text} (h : indexOf? contents = some index) :
    index < Palette.size := by
  rw [indexOf?] at h
  split at h
  · cases h
  next i _ =>
    split at h
    next hrange =>
      have hsize : i < (14 : Nat) := hrange.2
      cases h
      show i.toNat < 14
      omega
    next => cases h

theorem lt_size_of_indexIn? {bytes : Bytes} (h : indexIn? bytes = some index) :
    index < Palette.size := by
  obtain ⟨contents, -, hcontents⟩ := Option.bind_eq_some_iff.mp h
  exact lt_size_of_indexOf? hcontents

theorem exists_opens_of_history {indices : List Nat}
    (h : cache.history place tree = .ok indices) : ∃ location, cache.Opens place location tree := by
  rw [history, names] at h
  cases hlocated : tree.locate place cache.directory with
  | error refusal =>
    simp only [hlocated] at h
    cases h
  | ok location =>
    simp only [hlocated] at h
    split at h
    · cases h
    · cases h
    next hdirectory => exact ⟨location, hlocated, hdirectory⟩

theorem colorIndex_of_not_opens (hfileName : fileName environment root = .ok name)
    (hclosed : ∀ location, cache.Opens environment.directory location tree →
      tree.get? (location ++ [name]) = some .directory) :
    ∃ e, (cache.colorIndex environment root time tree).answer = .error (.configuration e) ∧
      (cache.colorIndex environment root time tree).tree = tree := by
  have hname := isName_of_fileName hfileName
  have hread : read? tree environment.directory (cache.filePath name) = none := by
    rw [Option.eq_none_iff_forall_ne_some]
    intro index hread
    obtain ⟨location, bytes, used, hopens, hfile, -⟩ := exists_of_read?_eq_some hname hread
    have hdirectory := hclosed location hopens
    rw [hfile] at hdirectory
    cases hdirectory
  simp only [colorIndex, hfileName, hread, assign]
  cases hhistory : cache.history environment.directory tree with
  | error e => exact ⟨e, rfl, rfl⟩
  | ok indices =>
    obtain ⟨location, hopens⟩ := exists_opens_of_history hhistory
    have hwrite : ∀ bytes, tree.writeBytes environment.directory (cache.filePath name) bytes time =
        .error .isADirectory := by
      intro bytes
      simp only [Tree.writeBytes, hopens.locate_filePath hname, hclosed location hopens]
    simp only [hwrite]
    exact ⟨_, rfl, trivial⟩

theorem filesAt_inj {a b : Text × Int} (ha : a ∈ filesAt tree location)
    (hb : b ∈ filesAt tree location) (hname : a.1 = b.1) : a = b := by
  obtain ⟨bytes, ha⟩ := mem_filesAt_iff.mp ha
  obtain ⟨others, hb⟩ := mem_filesAt_iff.mp hb
  rw [hname, hb] at ha
  have htime : b.2 = a.2 := by
    injection ha with hentry
    injection hentry
  exact Prod.ext hname htime.symm

namespace Evicted

variable {after : Tree} {file : Text × Int}

theorem mem_take (h : Evicted count location tree after) (hfile : file ∈ filesAt after location) :
    file ∈ (listing tree location).take count := by
  obtain ⟨bytes, hget⟩ := mem_filesAt_iff.mp hfile
  rw [h] at hget
  split at hget
  · cases hget
  next hkept =>
    have hlisted : file ∈ listing tree location :=
      mem_listing_iff.mpr (mem_filesAt_iff.mpr ⟨bytes, hget⟩)
    rw [← List.take_append_drop count (listing tree location), List.mem_append] at hlisted
    exact hlisted.resolve_right fun hdrop => hkept (List.mem_map_of_mem hdrop)

theorem mem_drop (h : Evicted count location tree after) (hfile : file ∈ filesAt tree location)
    (hgone : after.get? (location ++ [file.1]) = none) :
    file ∈ (listing tree location).drop count := by
  obtain ⟨bytes, hget⟩ := mem_filesAt_iff.mp hfile
  rw [h, hget] at hgone
  split at hgone
  next hremoved =>
    obtain ⟨other, hother, hplace⟩ := List.mem_map.mp hremoved
    have hname : other.1 = file.1 := by simpa using hplace
    have hsame := filesAt_inj (mem_listing_iff.mp (List.mem_of_mem_drop hother)) hfile hname
    rwa [← hsame]
  next => cases hgone

theorem get?_of_not_mem_drop (h : Evicted count location tree after)
    (hfile : file ∈ filesAt tree location)
    (hkept : file ∉ (listing tree location).drop count) :
    after.get? (location ++ [file.1]) = tree.get? (location ++ [file.1]) := by
  obtain ⟨bytes, hget⟩ := mem_filesAt_iff.mp hfile
  cases hafter : after.get? (location ++ [file.1]) with
  | none => exact absurd (h.mem_drop hfile hafter) hkept
  | some entry =>
    rw [h] at hafter
    split at hafter
    · cases hafter
    · rw [← hafter]

theorem length_le (h : Evicted count location tree after) :
    (filesAt after location).length ≤ count := by
  have hsubset : filesAt after location ⊆ (listing tree location).take count :=
    fun _ hfile => h.mem_take hfile
  calc (filesAt after location).length
      ≤ ((listing tree location).take count).length :=
        (nodup_filesAt after location).length_le_of_subset hsubset
    _ ≤ count := List.length_take_le count _

end Evicted

end ColorCache

end ShellPrompt
