import Mathlib.Data.List.DropRight
import Mathlib.Data.List.TakeWhile
import ShellPrompt.Text.Blank
/-!
What is taken off the ends of a text: a head that it is known to begin with, and the blanks around
it. A text is trimmed if neither end is a blank.
-/

set_option autoImplicit false

namespace ShellPrompt

namespace Text

variable {head t rest : Text}

theorem dropHead?_eq_some_iff : dropHead? head t = some rest ↔ t = head ++ rest := by
  rw [dropHead?]
  constructor
  · intro h
    split at h
    next hprefix =>
      obtain ⟨rest, rfl⟩ := List.isPrefixOf_iff_prefix.mp hprefix
      rw [List.drop_left] at h
      cases h
      rfl
    · cases h
  · rintro rfl
    rw [if_pos (List.isPrefixOf_iff_prefix.mpr (List.prefix_append head rest)), List.drop_left]

theorem dropHead?_eq_none_iff : dropHead? head t = none ↔ ¬ head <+: t := by
  rw [dropHead?, ite_eq_right_iff, ← List.isPrefixOf_iff_prefix]
  simp

theorem trim_eq (t : Text) :
    t.trim = (t.dropWhile CodePoint.isBlank).rdropWhile CodePoint.isBlank := rfl

theorem exists_blanks_around (t : Text) :
    ∃ before after, t = before ++ (t.trim ++ after) ∧ (∀ c ∈ before, c.isBlank = true) ∧
      ∀ c ∈ after, c.isBlank = true := by
  refine ⟨t.takeWhile CodePoint.isBlank,
    (t.dropWhile CodePoint.isBlank).rtakeWhile CodePoint.isBlank, ?_,
    fun c hc => List.mem_takeWhile_imp hc, fun c hc => List.mem_rtakeWhile_imp hc⟩
  rw [trim_eq, List.rdropWhile_append_rtakeWhile, List.takeWhile_append_dropWhile]

structure IsTrimmed (t : Text) : Prop where
  head : ∀ c ∈ t.head?, c.isBlank = false
  last : ∀ c ∈ t.getLast?, c.isBlank = false

theorem isTrimmed_trim (t : Text) : IsTrimmed t.trim := by
  rw [trim_eq]
  constructor
  case head =>
    intro c hc
    obtain ⟨rest, hrest⟩ := List.rdropWhile_prefix CodePoint.isBlank (t.dropWhile CodePoint.isBlank)
    have hhead := List.head?_dropWhile_not CodePoint.isBlank t
    rw [← hrest, List.head?_append, Option.mem_def.mp hc] at hhead
    simpa using hhead
  case last =>
    intro c hc
    obtain ⟨hne, hlast⟩ := List.mem_getLast?_eq_getLast hc
    rw [hlast]
    simpa using List.rdropWhile_last_not CodePoint.isBlank _ hne

theorem IsTrimmed.of_append (h : IsTrimmed (head ++ t)) (ht : ∀ c ∈ t.head?, c.isBlank = false) :
    IsTrimmed t where
  head := ht
  last c hc := h.last c (by rw [List.getLast?_append, Option.mem_def.mp hc]; rfl)

theorem IsTrimmed.trim_eq_self (h : IsTrimmed t) : t.trim = t := by
  have hfront : t.dropWhile CodePoint.isBlank = t := by
    cases t with
    | nil => rfl
    | cons c t => exact List.dropWhile_cons_of_neg (by simp [h.head c rfl])
  rw [trim_eq, hfront, List.rdropWhile_eq_self_iff]
  intro hne
  simp [h.last _ (List.getLast?_eq_some_getLast hne)]

theorem trim_blanks_append {blanks : Text} (h : ∀ c ∈ blanks, c.isBlank = true) (t : Text) :
    trim (blanks ++ t) = trim t := by
  rw [trim_eq, trim_eq, List.dropWhile_append_of_pos h]

end Text

end ShellPrompt
