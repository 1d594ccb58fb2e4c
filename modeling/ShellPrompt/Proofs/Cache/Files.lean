import ShellPrompt.Proofs.Cache.Listing
import ShellPrompt.Proofs.Cache.Memory
import ShellPrompt.Proofs.Cache.Names
/-!
The files of a color cache. While its directory holds color files and nothing else, each used at a
time of its own, every operation of the cache is one on the list of these files; and a use of a
root does to their names and indices what it does to a memory (`Holds.colorIndex`).
-/

set_option autoImplicit false

namespace ShellPrompt

structure ColorFile where
  name : Text
  index : Nat
  time : Int

namespace ColorCache

def indexIn? (bytes : Bytes) : Option Nat :=
  (fileText? bytes).bind indexOf?

theorem indexIn?_encode {index : Nat} (h : index < Palette.size) :
    indexIn? (Utf8.encode (Nat.toDigits 10 index ++ ['\n'])) = some index := by
  have hall : ∀ index : Fin Palette.size,
      indexIn? (Utf8.encode (Nat.toDigits 10 index.val ++ ['\n'])) = some index.val := by
    decide +kernel
  exact hall ⟨index, h⟩

def memoryOf (files : List ColorFile) : Memory Text :=
  files.map fun file => (file.name, file.index)

/--
The cache's directory is at a location and has these files and nothing else. The file that was used
last comes first, and no two were used at the same time.
-/
structure Holds (cache : ColorCache) (place location : Location) (files : List ColorFile)
    (tree : Tree) : Prop where
  located : tree.locate place cache.directory = .ok location
  directory : tree.get? location = some .directory
  ordered : files.Pairwise fun later earlier => earlier.time < later.time
  names : ∀ file ∈ files, Path.IsName file.name
  stored : ∀ file ∈ files, ∃ bytes,
    tree.get? (location ++ [file.name]) = some (.file bytes file.time) ∧
      indexIn? bytes = some file.index
  only : ∀ name, tree.get? (location ++ [name]) ≠ none → ∃ file ∈ files, file.name = name

namespace Holds

variable {cache : ColorCache} {place location : Location} {files : List ColorFile} {tree : Tree}

theorem nodup_names (h : Holds cache place location files tree) :
    (files.map ColorFile.name).Nodup := by
  refine List.pairwise_map.mpr (h.ordered.imp_of_mem ?_)
  intro later earlier hlater hearlier htime hname
  obtain ⟨bytes, hget, -⟩ := h.stored later hlater
  obtain ⟨others, hother, -⟩ := h.stored earlier hearlier
  rw [hname, hother] at hget
  have hsame : earlier.time = later.time := by
    injection hget with hentry
    injection hentry
  omega

theorem ne_directory (h : Holds cache place location files tree) (name : Text) :
    tree.get? (location ++ [name]) ≠ some .directory := by
  intro hdirectory
  obtain ⟨file, hfile, rfl⟩ := h.only name (by simp [hdirectory])
  obtain ⟨bytes, hget, -⟩ := h.stored file hfile
  rw [hget] at hdirectory
  cases hdirectory

theorem names_eq (h : Holds cache place location files tree) :
    cache.names place tree = .ok (files.map ColorFile.name) := by
  have hordered : (files.map fun file => (file.name, file.time)).Pairwise fun a b => b.2 < a.2 :=
    List.pairwise_map.mpr h.ordered
  have hmem : ∀ name time, (name, time) ∈ files.map (fun file => (file.name, file.time)) ↔
      ∃ bytes, tree.get? (location ++ [name]) = some (.file bytes time) := by
    intro name time
    rw [List.mem_map]
    constructor
    · rintro ⟨file, hfile, hpair⟩
      cases hpair
      obtain ⟨bytes, hget, -⟩ := h.stored file hfile
      exact ⟨bytes, hget⟩
    · rintro ⟨bytes, hget⟩
      obtain ⟨file, hfile, rfl⟩ := h.only name (by simp [hget])
      obtain ⟨others, hother, -⟩ := h.stored file hfile
      rw [hget] at hother
      cases hother
      exact ⟨file, hfile, rfl⟩
  simp only [ColorCache.names, h.located, h.directory, mergeSort_filesAt hordered hmem,
    List.map_map]
  rfl

theorem locate_filePath (h : Holds cache place location files tree) {name : Text}
    (hname : Path.IsName name) :
    tree.locate place (cache.filePath name) = .ok (location ++ [name]) :=
  Tree.locate_child hname h.located h.directory

theorem read?_of_mem (h : Holds cache place location files tree) {file : ColorFile}
    (hfile : file ∈ files) :
    read? tree place (cache.filePath file.name) = some file.index := by
  obtain ⟨bytes, hget, hbytes⟩ := h.stored file hfile
  simp only [read?, Tree.readBytes, Tree.status, h.locate_filePath (h.names file hfile), hget]
  exact hbytes

theorem read?_eq (h : Holds cache place location files tree) {name : Text}
    (hname : Path.IsName name) :
    read? tree place (cache.filePath name) = (memoryOf files).index? name := by
  cases hindex : (memoryOf files).index? name with
  | some index =>
    obtain ⟨file, hfile, hpair⟩ := List.mem_map.mp (Memory.mem_of_index?_eq_some hindex)
    cases hpair
    exact h.read?_of_mem hfile
  | none =>
    have hget : tree.get? (location ++ [name]) = none := by
      by_contra hget
      obtain ⟨file, hfile, rfl⟩ := h.only name hget
      refine Memory.index?_eq_none_iff.mp hindex ?_
      rw [Memory.keys, memoryOf, List.map_map]
      exact List.mem_map_of_mem hfile
    simp only [read?, Tree.readBytes, Tree.status, h.locate_filePath hname, hget]

theorem mem_of_read?_eq_some (h : Holds cache place location files tree) {name : Text}
    (hname : Path.IsName name) {index : Nat}
    (hread : read? tree place (cache.filePath name) = some index) :
    (name, index) ∈ memoryOf files := by
  rw [h.read?_eq hname] at hread
  exact Memory.mem_of_index?_eq_some hread

theorem history_eq (h : Holds cache place location files tree) {capacity : Nat}
    (hcapacity : cache.capacity = capacity) (hlength : files.length ≤ capacity) :
    cache.history place tree = .ok (memoryOf files).indices := by
  have hshort : (memoryOf files).indices.length ≤ capacity := by
    simpa [Memory.indices, memoryOf] using hlength
  have hread : ∀ file ∈ files,
      ((fun name => read? tree place (cache.filePath name)) ∘ ColorFile.name) file =
        (some ∘ ColorFile.index) file := fun file hfile => h.read?_of_mem hfile
  have hindices : (files.map ColorFile.name).filterMap
      (fun name => read? tree place (cache.filePath name)) = (memoryOf files).indices := by
    rw [List.filterMap_map, List.filterMap_congr hread, List.filterMap_eq_map, Memory.indices,
      memoryOf, List.map_map]
    rfl
  rw [history, h.names_eq, Except.map, hindices, hcapacity, upTo_natCast,
    List.take_of_length_le hshort]

theorem located_of_changed (h : Holds cache place location files tree) {name : Text} {after : Tree}
    (hsame : ∀ at', at' ≠ location ++ [name] → after.get? at' = tree.get? at') :
    after.locate place cache.directory = .ok location ∧ after.get? location = some .directory := by
  have hdirectories : ∀ at', tree.get? at' = some .directory →
      after.get? at' = some .directory := by
    intro at' hat
    have hne : at' ≠ location ++ [name] := by
      rintro rfl
      exact h.ne_directory name hat
    rw [hsame at' hne, hat]
  exact ⟨Tree.walk_of_directories hdirectories h.located, hdirectories location h.directory⟩

theorem put (h : Holds cache place location files tree) {name : Text} (hname : Path.IsName name)
    {bytes : Bytes} {index : Nat} (hbytes : indexIn? bytes = some index) {time : Int}
    (htime : ∀ file ∈ files, file.time < time) :
    Holds cache place location
      (⟨name, index, time⟩ :: files.filter fun file => file.name ≠ name)
      (tree.put (location ++ [name]) (.file bytes time)) := by
  have hroot : location ++ [name] ≠ [] := by simp
  have hsame : ∀ at', at' ≠ location ++ [name] →
      (tree.put (location ++ [name]) (.file bytes time)).get? at' = tree.get? at' := by
    intro at' hne
    rw [Tree.get?_put tree hroot, if_neg hne]
  have hother : ∀ other, other ≠ name →
      (tree.put (location ++ [name]) (.file bytes time)).get? (location ++ [other]) =
        tree.get? (location ++ [other]) := by
    intro other hne
    exact hsame _ (by simpa using hne)
  obtain ⟨hlocated, hdirectory⟩ := h.located_of_changed hsame
  refine ⟨hlocated, hdirectory, ?ordered, ?names, ?stored, ?only⟩
  case ordered =>
    refine List.pairwise_cons.mpr ⟨?_, h.ordered.filter _⟩
    intro file hfile
    exact htime file (List.mem_of_mem_filter hfile)
  case names =>
    rw [List.forall_mem_cons]
    exact ⟨hname, fun file hfile => h.names file (List.mem_of_mem_filter hfile)⟩
  case stored =>
    rw [List.forall_mem_cons]
    refine ⟨⟨bytes, by rw [Tree.get?_put tree hroot, if_pos rfl], hbytes⟩, ?_⟩
    intro file hfile
    obtain ⟨hfile, hne⟩ := List.mem_filter.mp hfile
    obtain ⟨others, hget, hothers⟩ := h.stored file hfile
    exact ⟨others, by rw [hother _ (by simpa using hne), hget], hothers⟩
  case only =>
    intro other hget
    by_cases hne : other = name
    · exact ⟨_, List.mem_cons_self, hne.symm⟩
    · rw [hother other hne] at hget
      obtain ⟨file, hfile, rfl⟩ := h.only other hget
      have hkept : file ∈ files.filter fun file => file.name ≠ name :=
        List.mem_filter.mpr ⟨hfile, by simpa using hne⟩
      exact ⟨file, List.mem_cons_of_mem _ hkept, rfl⟩

theorem remove {kept old : List ColorFile} {file : ColorFile}
    (h : Holds cache place location (kept ++ file :: old) tree) :
    Holds cache place location (kept ++ old) (tree.remove (location ++ [file.name])) := by
  have hsublist : List.Sublist (kept ++ old) (kept ++ file :: old) :=
    (List.sublist_cons_self file old).append_left kept
  have hne : ∀ other ∈ kept ++ old, other.name ≠ file.name := by
    intro other hmem hname
    have hnodup := h.nodup_names
    rw [(List.perm_middle.map ColorFile.name).nodup_iff, List.map_cons, List.nodup_cons] at hnodup
    exact hnodup.1 (hname ▸ List.mem_map_of_mem hmem)
  have hroot : location ++ [file.name] ≠ [] := by simp
  have hsame : ∀ at', at' ≠ location ++ [file.name] →
      (tree.remove (location ++ [file.name])).get? at' = tree.get? at' := by
    intro at' hat
    rw [Tree.get?_remove tree hroot, if_neg hat]
  obtain ⟨hlocated, hdirectory⟩ := h.located_of_changed hsame
  refine ⟨hlocated, hdirectory, h.ordered.sublist hsublist,
    fun other hother => h.names other (hsublist.subset hother), ?stored, ?only⟩
  case stored =>
    intro other hother
    obtain ⟨bytes, hget, hbytes⟩ := h.stored other (hsublist.subset hother)
    exact ⟨bytes, by rw [hsame _ (by simpa using hne other hother), hget], hbytes⟩
  case only =>
    intro name hget
    have hname : name ≠ file.name := by
      rintro rfl
      exact hget (by rw [Tree.get?_remove tree hroot, if_pos rfl])
    rw [hsame _ (by simpa using hname)] at hget
    obtain ⟨other, hother, rfl⟩ := h.only name hget
    rw [List.perm_middle.mem_iff] at hother
    refine ⟨other, (List.mem_cons.mp hother).resolve_left ?_, rfl⟩
    rintro rfl
    exact hname rfl

theorem removeFiles {kept old : List ColorFile}
    (h : Holds cache place location (kept ++ old) tree) :
    Holds cache place location kept
      (cache.removeFiles place (old.map ColorFile.name) tree) := by
  induction old generalizing tree with
  | nil => simpa [ColorCache.removeFiles] using h
  | cons file old ih =>
    have hname := h.names file (by simp)
    have hnext := ih h.remove
    simpa only [ColorCache.removeFiles, List.map_cons, List.foldl_cons, h.locate_filePath hname]
      using hnext

theorem evict (h : Holds cache place location files tree) {capacity : Nat}
    (hcapacity : cache.capacity = capacity) :
    ∃ notes, (cache.evict place tree).1 = .ok notes ∧
      Holds cache place location (files.take capacity) (cache.evict place tree).2 := by
  have hsplit : Holds cache place location (files.take capacity ++ files.drop capacity) tree := by
    rwa [List.take_append_drop]
  simp only [ColorCache.evict, h.names_eq, hcapacity, startingAt_natCast, ← List.map_drop]
  exact ⟨_, rfl, hsplit.removeFiles⟩

theorem touch (h : Holds cache place location files tree) {file : ColorFile} (hfile : file ∈ files)
    {time : Int} (htime : ∀ file ∈ files, file.time < time) :
    ∃ after, tree.touch place (cache.filePath file.name) time = .ok after ∧
      Holds cache place location
        ({ file with time := time } :: files.filter fun other => other.name ≠ file.name) after := by
  have hname := h.names file hfile
  obtain ⟨bytes, hget, hbytes⟩ := h.stored file hfile
  simp only [Tree.touch, h.locate_filePath hname, hget]
  exact ⟨_, rfl, h.put hname hbytes htime⟩

theorem writeBytes (h : Holds cache place location files tree) {name : Text}
    (hname : Path.IsName name) {bytes : Bytes} {index : Nat} (hbytes : indexIn? bytes = some index)
    {time : Int} (htime : ∀ file ∈ files, file.time < time) :
    ∃ after, tree.writeBytes place (cache.filePath name) bytes time = .ok after ∧
      Holds cache place location
        (⟨name, index, time⟩ :: files.filter fun other => other.name ≠ name) after := by
  refine ⟨_, ?_, h.put hname hbytes htime⟩
  simp only [Tree.writeBytes, h.locate_filePath hname]
  split
  next hdirectory => exact absurd hdirectory (h.ne_directory name)
  · rfl

theorem memoryOf_filter (files : List ColorFile) (name : Text) :
    memoryOf (files.filter fun file => file.name ≠ name) = (memoryOf files).forget name := by
  rw [memoryOf, memoryOf, Memory.forget, List.filter_map]
  rfl

/-- A root's color is what a memory answers, and the files are then what the memory is. -/
theorem colorIndex {environment : Environment} {capacity : Nat} {root name : Text} {time : Int}
    (h : Holds cache environment.directory location files tree)
    (hcapacity : cache.capacity = capacity) (hlength : files.length ≤ capacity)
    (hfileName : fileName environment root = .ok name) (htime : ∀ file ∈ files, file.time < time) :
    let outcome := cache.colorIndex environment root time tree
    outcome.answer = .ok ((memoryOf files).use capacity name).1 ∧
      ∃ after, memoryOf after = ((memoryOf files).use capacity name).2 ∧
        (∀ file ∈ after, file.time ≤ time) ∧
        Holds cache environment.directory location after outcome.tree := by
  have hname := isName_of_fileName hfileName
  have hlater : ∀ index, ∀ file ∈ (⟨name, index, time⟩ : ColorFile) ::
      files.filter fun other => other.name ≠ name, file.time ≤ time := by
    intro index
    rw [List.forall_mem_cons]
    exact ⟨Int.le_refl time, fun file hfile => (htime file (List.mem_of_mem_filter hfile)).le⟩
  cases hindex : (memoryOf files).index? name with
  | some index =>
    obtain ⟨file, hfile, hpair⟩ := List.mem_map.mp (Memory.mem_of_index?_eq_some hindex)
    cases hpair
    obtain ⟨after, htouch, hafter⟩ := h.touch hfile htime
    simp only [ColorCache.colorIndex, hfileName, h.read?_eq hname, hindex, renew, htouch,
      Memory.use_of_index?_eq_some hindex]
    refine ⟨trivial, _, ?_, hlater file.index, hafter⟩
    rw [← memoryOf_filter]
    rfl
  | none =>
    have hhistory := h.history_eq hcapacity hlength
    have hsize := Palette.pick_lt_size ((memoryOf files).indices.map Int.ofNat)
    obtain ⟨written, hwrite, hwritten⟩ := h.writeBytes hname (indexIn?_encode hsize) htime
    obtain ⟨notes, hnotes, hkept⟩ := hwritten.evict hcapacity
    have hnew : files.filter (fun other => other.name ≠ name) = files := by
      refine List.filter_eq_self.mpr ?_
      intro file hfile
      have hkeys := Memory.index?_eq_none_iff.mp hindex
      rw [Memory.keys, memoryOf, List.map_map] at hkeys
      have hne : file.name ≠ name := fun hne => hkeys (hne ▸ List.mem_map_of_mem hfile)
      simpa using hne
    simp only [ColorCache.colorIndex, hfileName, h.read?_eq hname, hindex, assign, hhistory, hwrite,
      Memory.use_of_index?_eq_none hindex]
    generalize hevict : cache.evict environment.directory written = evicted at hnotes hkept
    obtain ⟨result, after⟩ := evicted
    cases hnotes
    refine ⟨rfl, _, ?_, fun file hfile => hlater _ file (List.mem_of_mem_take hfile), hkept⟩
    rw [hnew, memoryOf, List.map_take]
    rfl

end Holds

end ColorCache

end ShellPrompt
