import Mathlib.Data.List.Nodup
import ShellPrompt.Palette.Pick
/-!
What the pick chooses from. The palette has more entries than the pick looks back at, so there is
always an entry that was not used recently, and the pick is one of those. No two entries share a
color.
-/

set_option autoImplicit false

namespace ShellPrompt

namespace Palette

theorem firstLeast?_ne_none {α : Type} (key : α → Nat) {candidates : List α}
    (h : candidates ≠ []) : firstLeast? key candidates ≠ none := by
  cases candidates with
  | nil => exact absurd rfl h
  | cons a rest =>
    rw [firstLeast?]
    split
    · exact Option.some_ne_none a
    · split <;> exact Option.some_ne_none _

theorem exists_append_of_firstLeast?_eq_some {α : Type} {key : α → Nat} {candidates : List α}
    {a : α} (h : firstLeast? key candidates = some a) :
    ∃ front rest, candidates = front ++ a :: rest ∧ (∀ b ∈ front, key a < key b) ∧
      ∀ b ∈ rest, key a ≤ key b := by
  induction candidates generalizing a with
  | nil => cases h
  | cons first others ih =>
    rw [firstLeast?] at h
    cases hothers : firstLeast? key others with
    | none =>
      rw [hothers] at h
      cases h
      have hnil : others = [] := by
        by_contra hne
        exact firstLeast?_ne_none key hne hothers
      exact ⟨[], others, rfl, by simp, by simp [hnil]⟩
    | some b =>
      obtain ⟨front, rest, rfl, hfront, hrest⟩ := ih hothers
      simp only [hothers] at h
      by_cases hless : key b < key first
      · rw [if_pos hless] at h
        cases h
        exact ⟨first :: front, rest, rfl, List.forall_mem_cons.mpr ⟨hless, hfront⟩, hrest⟩
      · rw [if_neg hless] at h
        cases h
        have hle := Nat.le_of_not_lt hless
        refine ⟨[], front ++ b :: rest, rfl, by simp, ?_⟩
        intro c hc
        rcases List.mem_append.mp hc with hc | hc
        · exact Nat.le_trans hle (Nat.le_of_lt (hfront c hc))
        · rcases List.mem_cons.mp hc with rfl | hc
          · exact hle
          · exact Nat.le_trans hle (hrest c hc)

theorem mem_of_firstLeast?_eq_some {α : Type} {key : α → Nat} {candidates : List α} {a : α}
    (h : firstLeast? key candidates = some a) : a ∈ candidates := by
  obtain ⟨front, rest, rfl, -, -⟩ := exists_append_of_firstLeast?_eq_some h
  exact List.mem_append_right front List.mem_cons_self

theorem mem_unused_iff {history : List Int} {i : Nat} :
    i ∈ unused history ↔ i < size ∧ (i : Int) ∉ history := by
  simp [unused]

theorem unused_ne_nil {history : List Int} (h : history.length < size) : unused history ≠ [] := by
  intro hnil
  have hsubset : (List.range size).map Int.ofNat ⊆ history := by
    intro used hused
    obtain ⟨i, hi, rfl⟩ := List.mem_map.mp hused
    by_contra hnot
    have hmem : i ∈ unused history := mem_unused_iff.mpr ⟨List.mem_range.mp hi, hnot⟩
    rw [hnil] at hmem
    cases hmem
  have hnodup : ((List.range size).map Int.ofNat).Nodup :=
    List.nodup_range.map fun _ _ => Int.ofNat.inj
  have hlength := hnodup.length_le_of_subset hsubset
  rw [List.length_map, List.length_range] at hlength
  omega

theorem firstLeast?_unused (history : List Int) :
    firstLeast? (fun i : Nat => cost i (history.take historyLimit))
      (unused (history.take historyLimit)) = some (pick history) := by
  have hshort : (history.take historyLimit).length < size := by
    have hlimit : historyLimit < size := by decide
    rw [List.length_take]
    omega
  have hne := firstLeast?_ne_none (fun i : Nat => cost i (history.take historyLimit))
    (unused_ne_nil hshort)
  obtain ⟨i, hi⟩ := Option.ne_none_iff_exists'.mp hne
  simp only [pick, hi, Option.getD_some]

theorem pick_mem_unused (history : List Int) :
    pick history ∈ unused (history.take historyLimit) :=
  mem_of_firstLeast?_eq_some (firstLeast?_unused history)

theorem pick_lt_size (history : List Int) : pick history < size :=
  (mem_unused_iff.mp (pick_mem_unused history)).1

theorem pick_not_mem_recent (history : List Int) :
    (pick history : Int) ∉ history.take historyLimit :=
  (mem_unused_iff.mp (pick_mem_unused history)).2

theorem exists_entry_of_lt_size {index : Nat} (h : index < size) :
    ∃ a, entries[index]? = some a ∧ entry? index = some a := by
  rw [← length_entries] at h
  refine ⟨entries[index], List.getElem?_eq_getElem h, ?_⟩
  have hplace : ¬ (index : Int) < -(entries.length : Int) ∧ ¬ (index : Int) < 0 := by omega
  unfold entry?
  rw [elementAt?, if_neg hplace.1, if_neg hplace.2, Int.toNat_natCast, List.getElem?_eq_getElem h]

theorem exists_entries_of_ne {index other : Nat} (hindex : index < size) (hother : other < size)
    (hne : index ≠ other) :
    ∃ a b, entry? index = some a ∧ entry? other = some b ∧ a.bright ≠ b.bright ∧ a.dim ≠ b.dim := by
  obtain ⟨a, ha, haentry⟩ := exists_entry_of_lt_size hindex
  obtain ⟨b, hb, hbentry⟩ := exists_entry_of_lt_size hother
  have hcolor : ∀ {color : PaletteEntry → Rgb}, (entries.map color).Nodup → color a ≠ color b := by
    intro color hnodup hsame
    have hlength : index < (entries.map color).length := by simpa [length_entries] using hindex
    refine hne ((List.getElem?_inj hlength hnodup).mp ?_)
    rw [List.getElem?_map, List.getElem?_map, ha, hb, Option.map_some, Option.map_some, hsame]
  exact ⟨a, b, haentry, hbentry, hcolor (by decide), hcolor (by decide)⟩

end Palette

end ShellPrompt
