import ShellPrompt.Cache.Colors
import ShellPrompt.Proofs.Storage.Entries
/-!
The order of the cache's files. Later used files come first, and files used at the same time come
by name; so a list of the files in which each was used later than the next is the listing.
-/

set_option autoImplicit false

namespace ShellPrompt

namespace Text

theorem le_total (s t : Text) : (le s t || le t s) = true := by
  induction s generalizing t with
  | nil => rfl
  | cons a s ih =>
    cases t with
    | nil => rfl
    | cons b t =>
      have hrest := ih t
      simp only [le, Bool.or_eq_true, Bool.and_eq_true, decide_eq_true_eq, beq_iff_eq] at hrest ⊢
      rcases Nat.lt_trichotomy a.val b.val with hlt | heq | hgt
      · exact Or.inl (Or.inl hlt)
      · rcases hrest with hrest | hrest
        · exact Or.inl (Or.inr ⟨heq, hrest⟩)
        · exact Or.inr (Or.inr ⟨heq.symm, hrest⟩)
      · exact Or.inr (Or.inl hgt)

theorem le_trans {r s t : Text} (hrs : le r s = true) (hst : le s t = true) :
    le r t = true := by
  induction r generalizing s t with
  | nil => rfl
  | cons a r ih =>
    cases s with
    | nil => cases hrs
    | cons b s =>
      cases t with
      | nil => cases hst
      | cons c t =>
        simp only [le, Bool.or_eq_true, Bool.and_eq_true, decide_eq_true_eq, beq_iff_eq]
          at hrs hst ⊢
        rcases hrs with hab | ⟨hab, hrs⟩
        · rcases hst with hbc | ⟨hbc, _⟩ <;> exact Or.inl (by omega)
        · rcases hst with hbc | ⟨hbc, hst⟩
          · exact Or.inl (by omega)
          · exact Or.inr ⟨by omega, ih hrs hst⟩

theorem le_antisymm {s t : Text} (hst : le s t = true) (hts : le t s = true) : s = t := by
  induction s generalizing t with
  | nil =>
    cases t with
    | nil => rfl
    | cons b t => cases hts
  | cons a s ih =>
    cases t with
    | nil => cases hst
    | cons b t =>
      simp only [le, Bool.or_eq_true, Bool.and_eq_true, decide_eq_true_eq, beq_iff_eq] at hst hts
      rcases hst with hlt | ⟨hab, hst⟩
      · omega
      · rcases hts with hgt | ⟨-, hts⟩
        · omega
        · have hhead : a = b := by
            cases a
            cases b
            cases hab
            rfl
          rw [hhead, ih hst hts]

end Text

namespace ColorCache

theorem precedes_iff {a b : Text × Int} :
    precedes a b = true ↔ b.2 < a.2 ∨ b.2 = a.2 ∧ Text.le a.1 b.1 = true := by
  simp [precedes]

theorem precedes_total (a b : Text × Int) : (precedes a b || precedes b a) = true := by
  have hnames := Text.le_total a.1 b.1
  rw [Bool.or_eq_true] at hnames ⊢
  rw [precedes_iff, precedes_iff]
  rcases Int.lt_trichotomy a.2 b.2 with hlt | heq | hgt
  · exact Or.inr (Or.inl hlt)
  · rcases hnames with hnames | hnames
    · exact Or.inl (Or.inr ⟨heq.symm, hnames⟩)
    · exact Or.inr (Or.inr ⟨heq, hnames⟩)
  · exact Or.inl (Or.inl hgt)

theorem precedes_trans (a b c : Text × Int) (hab : precedes a b = true)
    (hbc : precedes b c = true) : precedes a c = true := by
  rw [precedes_iff] at hab hbc ⊢
  rcases hab with hab | ⟨hab, hnames⟩
  · rcases hbc with hbc | ⟨hbc, _⟩ <;> exact Or.inl (by omega)
  · rcases hbc with hbc | ⟨hbc, hmore⟩
    · exact Or.inl (by omega)
    · exact Or.inr ⟨by omega, Text.le_trans hnames hmore⟩

theorem precedes_antisymm {a b : Text × Int} (hab : precedes a b = true)
    (hba : precedes b a = true) : a = b := by
  rw [precedes_iff] at hab hba
  have htime : a.2 = b.2 := by omega
  have hab := hab.resolve_left (by omega)
  have hba := hba.resolve_left (by omega)
  exact Prod.ext (Text.le_antisymm hab.2 hba.2) htime

theorem mem_filesAt_iff {tree : Tree} {location : Location} {name : Text} {time : Int} :
    (name, time) ∈ filesAt tree location ↔
      ∃ bytes, tree.get? (location ++ [name]) = some (.file bytes time) := by
  rw [filesAt, List.mem_filterMap]
  constructor
  · rintro ⟨other, _, hother⟩
    split at hother
    next bytes found hget =>
      cases hother
      exact ⟨bytes, hget⟩
    · cases hother
  · rintro ⟨bytes, hget⟩
    refine ⟨name, Tree.mem_childNames_iff.mpr ?_, ?_⟩
    · rw [hget]
      exact Option.some_ne_none _
    · rw [hget]

theorem nodup_filesAt (tree : Tree) (location : Location) : (filesAt tree location).Nodup := by
  refine List.Nodup.filterMap ?_ (tree.nodup_childNames location)
  intro name other file hfile hother
  rw [Option.mem_def] at hfile hother
  split at hfile
  · split at hother
    · cases hfile
      cases hother
      rfl
    · cases hother
  · cases hfile

def listing (tree : Tree) (location : Location) : List (Text × Int) :=
  (filesAt tree location).mergeSort precedes

section Listing

variable {tree : Tree} {location : Location} {a b : Text × Int} {count : Nat}

theorem mem_listing_iff : a ∈ listing tree location ↔ a ∈ filesAt tree location :=
  (List.mergeSort_perm _ _).mem_iff

theorem precedes_of_mem_take_of_mem_drop (ha : a ∈ (listing tree location).take count)
    (hb : b ∈ (listing tree location).drop count) :
    precedes a b = true ∧ precedes b a = false := by
  have hsorted := List.pairwise_mergeSort precedes_trans precedes_total (filesAt tree location)
  have hnodup : (listing tree location).Nodup :=
    (List.mergeSort_perm _ _).nodup_iff.mpr (nodup_filesAt tree location)
  have hbefore : precedes a b = true := by
    have hparts := List.take_append_drop count (listing tree location)
    rw [← listing, ← hparts, List.pairwise_append] at hsorted
    exact hsorted.2.2 a ha b hb
  refine ⟨hbefore, Bool.eq_false_iff.mpr ?_⟩
  intro hafter
  have hsame := precedes_antisymm hbefore hafter
  exact List.disjoint_take_drop hnodup (Nat.le_refl count) ha (hsame ▸ hb)

theorem not_mem_drop_listing (hcount : 1 ≤ count)
    (hlast : ∀ b ∈ filesAt tree location, b ≠ a → b.2 < a.2) :
    a ∉ (listing tree location).drop count := by
  intro ha
  have hlength : 0 < ((listing tree location).take count).length := by
    have := List.length_pos_of_mem ha
    rw [List.length_drop] at this
    rw [List.length_take]
    omega
  obtain ⟨first, hfirst⟩ := List.exists_mem_of_length_pos hlength
  obtain ⟨hbefore, hafter⟩ := precedes_of_mem_take_of_mem_drop hfirst ha
  have hne : first ≠ a := by
    rintro rfl
    rw [hbefore] at hafter
    cases hafter
  have htime := hlast first (mem_listing_iff.mp (List.mem_of_mem_take hfirst)) hne
  rw [precedes_iff] at hbefore
  omega

end Listing

/-- The files of a directory are listed in the order of their times where no two are the same. -/
theorem mergeSort_filesAt {tree : Tree} {location : Location} {files : List (Text × Int)}
    (hordered : files.Pairwise fun a b => b.2 < a.2)
    (hfiles : ∀ name time, (name, time) ∈ files ↔
      ∃ bytes, tree.get? (location ++ [name]) = some (.file bytes time)) :
    (filesAt tree location).mergeSort precedes = files := by
  have htimes : (files.map Prod.snd).Nodup :=
    List.pairwise_map.mpr (hordered.imp fun h => (Int.ne_of_lt h).symm)
  have hperm : ((filesAt tree location).mergeSort precedes).Perm files := by
    refine (List.mergeSort_perm _ _).trans ?_
    refine (List.perm_ext_iff_of_nodup (nodup_filesAt tree location) htimes.of_map).mpr ?_
    rintro ⟨name, time⟩
    rw [mem_filesAt_iff, hfiles]
  have hsorted := List.pairwise_mergeSort precedes_trans precedes_total (filesAt tree location)
  refine hperm.eq_of_pairwise ?_ hsorted (hordered.imp fun h => precedes_iff.mpr (Or.inl h))
  intro a b ha hb hab hba
  have htime : a.2 = b.2 := by
    rw [precedes_iff] at hab hba
    omega
  exact List.inj_on_of_nodup_map htimes (hperm.subset ha) hb htime

end ColorCache

end ShellPrompt
