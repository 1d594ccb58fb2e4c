import ShellPrompt.Proofs.Cache.Files
/-!
Runs of a color cache. Asked one question after the other, a cache that starts with an empty
directory replies as a memory does that knows each root by its place: its files are the memory, in
the order of their times (`Holds.replies`). A root that leads nowhere fails in both, and changes
neither.
-/

set_option autoImplicit false

namespace ShellPrompt

namespace ColorCache

def ask (cache : ColorCache) (environment : Environment) (question : Question) (tree : Tree) :
    Reply × Tree :=
  match question with
  | .color root time =>
    let outcome := cache.colorIndex environment root time tree
    match outcome.answer with
    | .ok index => (.color index, outcome.tree)
    | .error failure => (.failed failure, outcome.tree)
  | .history =>
    match cache.history environment.directory tree with
    | .ok indices => (.history indices, tree)
    | .error e => (.failed (.configuration e), tree)

theorem ask_of_fileName_eq_error {environment : Environment} {root : Text} {cause : Breakdown}
    (h : fileName environment root = .error cause) (cache : ColorCache) (time : Int)
    (tree : Tree) : cache.ask environment (.color root time) tree =
      (.failed (.breakdown cause), tree) := by
  simp only [ask, colorIndex, h]

/-- The cache's directory is at a location, and nothing is in it. -/
structure IsEmptyAt (cache : ColorCache) (place location : Location) (tree : Tree) : Prop where
  located : tree.locate place cache.directory = .ok location
  directory : tree.get? location = some .directory
  empty : tree.childNames location = []

/-- Each use is later than the one before it, and no two places have one digest. -/
structure Orderly (environment : Environment) (questions : List Question) : Prop where
  forward : (Question.times questions).Pairwise (· < ·)
  digests : Set.InjOn digest? {place | place ∈ Question.keys (rootPlace environment) questions}

variable {cache : ColorCache} {environment : Environment} {location : Location} {tree : Tree}
  {files : List ColorFile} {questions : List Question} {capacity : Nat}

theorem Orderly.injOn_digestOf (h : Orderly environment questions) :
    Set.InjOn digestOf {place | place ∈ Question.keys (rootPlace environment) questions} := by
  intro place hplace other hother hsame
  obtain ⟨root, -, hroot⟩ := Question.mem_keys_iff.mp hplace
  obtain ⟨otherRoot, -, hotherRoot⟩ := Question.mem_keys_iff.mp hother
  refine h.digests hplace hother ?_
  rw [digest?_of_rootPlace hroot, digest?_of_rootPlace hotherRoot, hsame]

theorem IsEmptyAt.holds {place : Location} (h : cache.IsEmptyAt place location tree) :
    Holds cache place location [] tree := by
  refine ⟨h.located, h.directory, List.Pairwise.nil, by simp, by simp, ?_⟩
  intro name hget
  have hname := Tree.mem_childNames_iff.mpr hget
  rw [h.empty] at hname
  cases hname

namespace Holds

theorem perm_childNames {place : Location} (h : Holds cache place location files tree) :
    (tree.childNames location).Perm (files.map ColorFile.name) := by
  rw [List.perm_ext_iff_of_nodup (tree.nodup_childNames location) h.nodup_names]
  intro name
  rw [Tree.mem_childNames_iff, List.mem_map]
  constructor
  · exact h.only name
  · rintro ⟨file, hfile, rfl⟩
    obtain ⟨bytes, hget, -⟩ := h.stored file hfile
    simp [hget]

theorem ask_history (h : Holds cache environment.directory location files tree)
    (hcapacity : cache.capacity = capacity) (hlength : files.length ≤ capacity) :
    cache.ask environment .history tree = (.history (memoryOf files).indices, tree) := by
  rw [ask, h.history_eq hcapacity hlength]

theorem ask_color (h : Holds cache environment.directory location files tree)
    (hcapacity : cache.capacity = capacity) (hlength : files.length ≤ capacity) {root name : Text}
    (hname : fileName environment root = .ok name) {time : Int}
    (htime : ∀ file ∈ files, file.time < time) :
    ∃ after, memoryOf after = ((memoryOf files).use capacity name).2 ∧
      (∀ file ∈ after, file.time ≤ time) ∧
      (cache.ask environment (.color root time) tree).1 =
        .color ((memoryOf files).use capacity name).1 ∧
      Holds cache environment.directory location after
        (cache.ask environment (.color root time) tree).2 := by
  obtain ⟨hanswer, after, hafter, htimes, hholds⟩ :=
    h.colorIndex hcapacity hlength hname htime
  refine ⟨after, hafter, htimes, ?_⟩
  rw [ask, hanswer]
  exact ⟨rfl, hholds⟩

/-- Step by step, a cache replies as the memory does that its files are. -/
theorem replies (h : Holds cache environment.directory location files tree)
    (hcapacity : cache.capacity = capacity) (hlength : files.length ≤ capacity)
    (hforward : (Question.times questions).Pairwise (· < ·))
    (htimes : ∀ file ∈ files, ∀ time ∈ Question.times questions, file.time < time) :
    let recalled := Question.replies (Memory.ask capacity (fileName environment)) questions
      (memoryOf files)
    ∃ after, memoryOf after = recalled.2 ∧
      (Question.replies (cache.ask environment) questions tree).1 = recalled.1 ∧
      Holds cache environment.directory location after
        (Question.replies (cache.ask environment) questions tree).2 := by
  -- The files are the memory after each question, and none of them is as late as the next one.
  induction questions generalizing files tree with
  | nil => exact ⟨files, rfl, rfl, h⟩
  | cons question questions ih =>
    rw [Question.replies_cons, Question.replies_cons]
    cases question with
    | history =>
      obtain ⟨after, hafter, hreplies, hholds⟩ := ih h hlength hforward htimes
      rw [h.ask_history hcapacity hlength]
      exact ⟨after, hafter, congrArg _ hreplies, hholds⟩
    | color root time =>
      obtain ⟨hnext, hforward⟩ := List.pairwise_cons.mp hforward
      cases hname : fileName environment root with
      | error cause =>
        have hlater : ∀ file ∈ files, ∀ later ∈ Question.times questions, file.time < later :=
          fun file hfile later hlater => htimes file hfile later (List.mem_cons_of_mem _ hlater)
        obtain ⟨after, hafter, hreplies, hholds⟩ := ih h hlength hforward hlater
        rw [ask_of_fileName_eq_error hname, Memory.ask_of_keyOf_eq_error hname]
        exact ⟨after, hafter, congrArg _ hreplies, hholds⟩
      | ok name =>
        have htime : ∀ file ∈ files, file.time < time := by
          intro file hfile
          exact htimes file hfile time List.mem_cons_self
        obtain ⟨used, hused, hlast, hreply, hholds⟩ := h.ask_color hcapacity hlength hname htime
        have hlength' : used.length ≤ capacity := by
          have hshort : (memoryOf files).length ≤ capacity := by simpa [memoryOf] using hlength
          have hmemory := Memory.length_use_le hshort name
          rw [← hused] at hmemory
          simpa [memoryOf] using hmemory
        have hlater : ∀ file ∈ used, ∀ later ∈ Question.times questions, file.time < later := by
          intro file hfile later hlater
          have hfile := hlast file hfile
          have hlater := hnext later hlater
          omega
        obtain ⟨after, hafter, hreplies, hholds⟩ := ih hholds hlength' hforward hlater
        rw [hused] at hafter hreplies
        rw [Memory.ask_of_keyOf_eq_ok hname]
        exact ⟨after, hafter, by rw [hreply, hreplies], hholds⟩

end Holds

/-- What a run from an empty directory leaves behind, and what it replied. -/
theorem IsEmptyAt.replies (h : cache.IsEmptyAt environment.directory location tree)
    (hcapacity : cache.capacity = capacity) (hquestions : Orderly environment questions) :
    let recalled := Question.replies (Memory.ask capacity (rootPlace environment)) questions []
    ∃ files, memoryOf files = recalled.2.renamed digestOf ∧
      (Question.replies (cache.ask environment) questions tree).1 = recalled.1 ∧
      Holds cache environment.directory location files
        (Question.replies (cache.ask environment) questions tree).2 := by
  obtain ⟨files, hfiles, hreplies, hholds⟩ :=
    h.holds.replies hcapacity (Nat.zero_le _) hquestions.forward (by simp)
  have hkeys : ∀ key ∈ Memory.keys [],
      key ∈ {place | place ∈ Question.keys (rootPlace environment) questions} := by
    simp [Memory.keys]
  have hrenamed := Memory.replies_renamed hquestions.injOn_digestOf (fun _ hkey => hkey) hkeys
    capacity
  have hnil : memoryOf [] = Memory.renamed digestOf [] := rfl
  have hnames : fileName environment = fun root => (rootPlace environment root).map digestOf :=
    funext (fileName_eq environment)
  rw [hnil, hnames, hrenamed] at hfiles hreplies
  exact ⟨files, hfiles, hreplies, hholds⟩

/--
The replies of a cache are those of a memory, however long the run; every root has the place that
it resolves to as its key, unless the root fails. So the cache never has more files than its
capacity, and a root keeps its color while fewer others than that were used.
-/
theorem replies_eq_memory_replies (hcapacity : cache.capacity = capacity)
    (hempty : cache.IsEmptyAt environment.directory location tree)
    (hquestions : Orderly environment questions) :
    let run := Question.replies (cache.ask environment) questions tree
    let keyOf := rootPlace environment
    run.1 = (Question.replies (Memory.ask capacity keyOf) questions []).1 ∧
      (∀ root, (Path.ofText root).isAbsolute = true → (∀ cause, ¬ IsUnnamable root cause) →
        keyOf root = .ok ((Path.ofText root).resolve [])) ∧
      (run.2.childNames location).length ≤ capacity ∧
      ∀ before root time between again later after place,
        questions = before ++ .color root time :: (between ++ .color again later :: after) →
        keyOf root = .ok place → keyOf again = .ok place →
        ((Question.keys keyOf between).toFinset.erase place).card < capacity →
        ∃ index earlier middle last,
          run.1 = earlier ++ .color index :: (middle ++ .color index :: last) ∧
            earlier.length = before.length ∧ middle.length = between.length := by
  obtain ⟨files, hfiles, hreplies, hholds⟩ := hempty.replies hcapacity hquestions
  refine ⟨hreplies, ?_, ?_, ?_⟩
  · intro root habsolute hnamable
    exact rootPlace_of_isAbsolute habsolute hnamable environment
  · have hnil : ([] : Memory Location).length ≤ capacity := Nat.zero_le capacity
    have hlength := Memory.length_replies_le hnil (rootPlace environment) questions
    have hnames := congrArg List.length hfiles
    rw [memoryOf, Memory.renamed, List.length_map, List.length_map] at hnames
    rw [hholds.perm_childNames.length_eq, List.length_map, hnames]
    exact hlength
  · rintro before root time between again later after place rfl hroot hagain hroom
    rw [hreplies]
    exact Memory.replies_recall hroot hagain hroom before after time later []

/--
Two roots take turns in a cache that keeps one file. One of them is written in three ways; between
them there are one in a home that nobody has and one with a stray byte.
-/
def turns : List Question :=
  [.color "/a" 1, .history, .color "~nobody/a" 2, .color "/b/../a" 3, .color "b" 4, .history,
    .color ['/', CodePoint.ofNat 0xDCFF] 5, .color "~/a" 6]

def colors (capacity : Int) : ColorCache := ⟨Path.ofText "/colors", capacity⟩

def emptyColors : Tree := ⟨[([("colors" : Text)], .directory)], by decide⟩

def bare : Environment := ⟨[("HOME", "/")], [], []⟩

theorem digest?_ne : digest? [("a" : Text)] ≠ digest? [("b" : Text)] := by
  decide +kernel

theorem orderly_turns : Orderly bare turns := by
  have hplaces : ∀ place ∈ Question.keys (rootPlace bare) turns,
      place = [("a" : Text)] ∨ place = [("b" : Text)] := by decide +kernel
  refine ⟨by decide, ?_⟩
  intro place hplace other hother hsame
  rcases hplaces place hplace with rfl | rfl <;> rcases hplaces other hother with rfl | rfl
  · rfl
  · exact absurd hsame digest?_ne
  · exact absurd hsame.symm digest?_ne
  · rfl

theorem isEmptyAt_emptyColors (capacity : Int) :
    (colors capacity).IsEmptyAt bare.directory [("colors" : Text)] emptyColors :=
  ⟨rfl, rfl, rfl⟩

theorem replies_eq_memory_replies_turns :
    let run := Question.replies ((colors 1).ask bare) turns emptyColors
    run.1 = [.color 0, .history [0], .failed (.breakdown .homeUnknown), .color 0, .color 3,
        .history [3], .failed (.breakdown .surrogateInPath), .color 0] ∧
      (run.2.childNames [("colors" : Text)]).length ≤ 1 ∧
      ∃ index earlier middle last,
        run.1 = earlier ++ .color index :: (middle ++ .color index :: last) ∧
          earlier.length = 0 ∧ middle.length = 2 := by
  have hcapacity : (colors 1).capacity = (1 : Nat) := rfl
  obtain ⟨hreplies, -, hfiles, hkept⟩ :=
    replies_eq_memory_replies hcapacity (isEmptyAt_emptyColors 1) orderly_turns
  refine ⟨?_, hfiles, hkept [] "/a" 1 [.history, .color "~nobody/a" 2] "/b/../a" 3 _
    [("a" : Text)] rfl (by decide +kernel) (by decide +kernel) (by decide +kernel)⟩
  rw [hreplies]
  decide +kernel

/--
With a capacity of ten or less, the files of a cache have different indices of the palette at any
time. So two roots that both still have a color have different ones.
-/
theorem remembered_colors_differ (hcapacity : cache.capacity = capacity) (hlimit : capacity ≤ 10)
    (hempty : cache.IsEmptyAt environment.directory location tree)
    (hquestions : Orderly environment questions) :
    let after := (Question.replies (cache.ask environment) questions tree).2
    let stored? := fun name => read? after environment.directory (cache.filePath name)
    (∀ name ∈ after.childNames location, ∃ index < 14, stored? name = some index) ∧
      (after.childNames location).Pairwise (fun name other => stored? name ≠ stored? other) ∧
      ∀ root ∈ Question.roots questions, ∀ other ∈ Question.roots questions,
        rootPlace environment root ≠ rootPlace environment other →
        ∀ name, fileName environment root = .ok name →
        ∀ otherName, fileName environment other = .ok otherName →
        ∀ index, stored? name = some index → ∀ otherIndex, stored? otherName = some otherIndex →
        ∃ a b, Palette.entry? index = some a ∧ Palette.entry? otherIndex = some b ∧
          a.bright ≠ b.bright ∧ a.dim ≠ b.dim := by
  obtain ⟨files, hfiles, -, hholds⟩ := hempty.replies hcapacity hquestions
  have hdistinct : (memoryOf files).IsDistinct := by
    have hmemory := Memory.isDistinct_nil.replies (Nat.zero_le capacity) hlimit
      (rootPlace environment) questions
    rw [hfiles]
    exact hmemory.renamed digestOf
  have hstored : ∀ file ∈ files, (file.name, file.index) ∈ memoryOf files :=
    fun file hfile => List.mem_map_of_mem hfile
  have hsize : ∀ {name index}, (name, index) ∈ memoryOf files → index < 14 :=
    fun hmem => hdistinct.lt_size _ (List.mem_map_of_mem hmem)
  refine ⟨?_, ?_, ?_⟩
  · intro name hname
    obtain ⟨file, hfile, rfl⟩ := List.mem_map.mp (hholds.perm_childNames.mem_iff.mp hname)
    exact ⟨file.index, hsize (hstored file hfile), hholds.read?_of_mem hfile⟩
  · refine (Tree.nodup_childNames _ _).imp_of_mem ?_
    intro name other hname hother hne hsame
    obtain ⟨file, hfile, rfl⟩ := List.mem_map.mp (hholds.perm_childNames.mem_iff.mp hname)
    obtain ⟨second, hsecond, rfl⟩ := List.mem_map.mp (hholds.perm_childNames.mem_iff.mp hother)
    have hindex : file.index = second.index := Option.some.inj <|
      (hholds.read?_of_mem hfile).symm.trans (hsame.trans (hholds.read?_of_mem hsecond))
    exact hne (hdistinct.key_eq (hindex ▸ hstored file hfile) (hstored second hsecond))
  · intro root hroot other hother hne name hname otherName hotherName index hindex otherIndex
      hotherIndex
    have hindex := hholds.mem_of_read?_eq_some (isName_of_fileName hname) hindex
    have hotherIndex :=
      hholds.mem_of_read?_eq_some (isName_of_fileName hotherName) hotherIndex
    refine Palette.exists_entries_of_ne (hsize hindex) (hsize hotherIndex) ?_
    rintro rfl
    obtain ⟨place, hplace, hdigest⟩ := fileName_eq_ok_iff.mp hname
    obtain ⟨otherPlace, hotherPlace, hotherDigest⟩ := fileName_eq_ok_iff.mp hotherName
    have hplaces : place = otherPlace := by
      refine hquestions.digests (Question.mem_keys_iff.mpr ⟨root, hroot, hplace⟩)
        (Question.mem_keys_iff.mpr ⟨other, hother, hotherPlace⟩) ?_
      rw [hdigest, hotherDigest, hdistinct.key_eq hindex hotherIndex]
    rw [hplace, hotherPlace, hplaces] at hne
    exact hne rfl

theorem remembered_colors_differ_turns :
    let after := (Question.replies ((colors 2).ask bare) turns emptyColors).2
    let stored? := fun name => read? after bare.directory ((colors 2).filePath name)
    (∀ name ∈ after.childNames [("colors" : Text)], ∃ index < 14, stored? name = some index) ∧
      ∀ index, stored? (digestOf [("a" : Text)]) = some index →
      ∀ otherIndex, stored? (digestOf [("b" : Text)]) = some otherIndex →
      ∃ a b, Palette.entry? index = some a ∧ Palette.entry? otherIndex = some b ∧
        a.bright ≠ b.bright ∧ a.dim ≠ b.dim := by
  have hcapacity : (colors 2).capacity = (2 : Nat) := rfl
  obtain ⟨hstored, -, hcolors⟩ :=
    remembered_colors_differ hcapacity (by decide) (isEmptyAt_emptyColors 2) orderly_turns
  have hfirst : rootPlace bare "~/a" = .ok ["a"] := by decide +kernel
  have hsecond : rootPlace bare "b" = .ok ["b"] := by decide +kernel
  have hne : rootPlace bare "~/a" ≠ rootPlace bare "b" := by decide +kernel
  exact ⟨hstored, hcolors "~/a" (by decide) "b" (by decide) hne
    _ (fileName_of_rootPlace hfirst) _ (fileName_of_rootPlace hsecond)⟩

end ColorCache

end ShellPrompt
