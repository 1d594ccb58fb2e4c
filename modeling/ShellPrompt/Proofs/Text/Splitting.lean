import ShellPrompt.Text.Basic
/-!
Splitting at a separator undoes joining with it. Parts that hold the separator themselves fall
apart further, each into its own pieces; parts without it come back as they were.
-/

set_option autoImplicit false

namespace ShellPrompt

namespace Text

@[simp] theorem splitAt_nil (separator : CodePoint) : splitAt separator [] = [[]] := rfl

@[simp] theorem splitAt_cons_self (separator : CodePoint) (t : Text) :
    splitAt separator (separator :: t) = [] :: splitAt separator t := by
  simp [splitAt]

theorem splitAt_ne_nil (separator : CodePoint) (t : Text) : splitAt separator t ≠ [] := by
  induction t with
  | nil => simp
  | cons c t ih =>
    rw [splitAt]
    split
    · simp
    · split <;> simp

theorem splitAt_cons_of_ne {separator c : CodePoint} {t piece : Text} {pieces : List Text}
    (hc : c ≠ separator) (ht : splitAt separator t = piece :: pieces) :
    splitAt separator (c :: t) = (c :: piece) :: pieces := by
  rw [splitAt, if_neg hc, ht]

theorem splitAt_append_cons (separator : CodePoint) (s t : Text) :
    splitAt separator (s ++ separator :: t) = splitAt separator s ++ splitAt separator t := by
  induction s with
  | nil => simp
  | cons c s ih =>
    by_cases hc : c = separator
    · subst hc
      simp [ih]
    · obtain ⟨piece, pieces, hs⟩ := List.exists_cons_of_ne_nil (splitAt_ne_nil separator s)
      rw [hs, List.cons_append] at ih
      rw [List.cons_append, splitAt_cons_of_ne hc ih, splitAt_cons_of_ne hc hs, List.cons_append]

theorem splitAt_of_not_mem {separator : CodePoint} {t : Text} (h : separator ∉ t) :
    splitAt separator t = [t] := by
  induction t with
  | nil => rfl
  | cons c t ih =>
    simp only [List.mem_cons, not_or] at h
    exact splitAt_cons_of_ne (Ne.symm h.1) (ih h.2)

theorem splitAt_append_of_not_mem {separator : CodePoint} {s t piece : Text} {pieces : List Text}
    (hs : separator ∉ s) (ht : splitAt separator t = piece :: pieces) :
    splitAt separator (s ++ t) = (s ++ piece) :: pieces := by
  induction s with
  | nil => exact ht
  | cons c s ih =>
    rw [List.mem_cons, not_or] at hs
    exact splitAt_cons_of_ne (Ne.symm hs.1) (ih hs.2)

theorem join_cons_cons (separator part next : Text) (parts : List Text) :
    join separator (part :: next :: parts) =
      part ++ separator ++ join separator (next :: parts) := rfl

theorem splitAt_join (separator : CodePoint) {parts : List Text} (h : parts ≠ []) :
    splitAt separator (join [separator] parts) = parts.flatMap (splitAt separator) := by
  induction parts with
  | nil => exact absurd rfl h
  | cons part parts ih =>
    cases parts with
    | nil => simp [join]
    | cons next parts =>
      rw [join_cons_cons, List.append_assoc, List.singleton_append, splitAt_append_cons,
        ih (by simp)]
      exact List.flatMap_cons.symm

theorem join_splitAt (separator : CodePoint) (t : Text) :
    join [separator] (splitAt separator t) = t := by
  induction t with
  | nil => rfl
  | cons c t ih =>
    obtain ⟨piece, pieces, ht⟩ := List.exists_cons_of_ne_nil (splitAt_ne_nil separator t)
    rw [ht] at ih
    by_cases hc : c = separator
    · rw [hc, splitAt_cons_self, ht]
      change [] ++ [separator] ++ join [separator] (piece :: pieces) = separator :: t
      rw [ih]
      rfl
    · rw [splitAt_cons_of_ne hc ht]
      cases pieces with
      | nil => exact congrArg (c :: ·) ih
      | cons next pieces => exact congrArg (c :: ·) ih

theorem not_mem_of_mem_splitAt {separator : CodePoint} {t piece : Text}
    (h : piece ∈ splitAt separator t) : separator ∉ piece := by
  induction t generalizing piece with
  | nil =>
    rw [splitAt_nil, List.mem_singleton] at h
    simp [h]
  | cons c t ih =>
    obtain ⟨first, pieces, ht⟩ := List.exists_cons_of_ne_nil (splitAt_ne_nil separator t)
    rw [ht] at ih
    by_cases hc : c = separator
    · rw [hc, splitAt_cons_self, ht, List.mem_cons] at h
      rcases h with rfl | h
      · simp
      · exact ih h
    · rw [splitAt_cons_of_ne hc ht, List.mem_cons] at h
      rcases h with rfl | h
      · rw [List.mem_cons, not_or]
        exact ⟨Ne.symm hc, ih List.mem_cons_self⟩
      · exact ih (List.mem_cons_of_mem first h)

theorem cut?_eq_some_iff {mark : CodePoint} {s before after : Text} :
    cut? mark s = some (before, after) ↔ s = before ++ mark :: after ∧ mark ∉ before := by
  induction s generalizing before with
  | nil => simp [cut?]
  | cons c s ih =>
    rw [cut?]
    by_cases hc : c = mark
    · subst hc
      rw [if_pos rfl]
      constructor
      · intro h
        cases h
        simp
      · rintro ⟨hs, hmark⟩
        cases before with
        | nil =>
          cases hs
          rfl
        | cons d before =>
          cases hs
          simp at hmark
    · rw [if_neg hc, Option.map_eq_some_iff]
      constructor
      · rintro ⟨⟨front, rest⟩, hcut, hpair⟩
        cases hpair
        obtain ⟨hs, hmark⟩ := ih.mp hcut
        refine ⟨by rw [hs, List.cons_append], ?_⟩
        rw [List.mem_cons, not_or]
        exact ⟨Ne.symm hc, hmark⟩
      · rintro ⟨hs, hmark⟩
        cases before with
        | nil =>
          cases hs
          exact absurd rfl hc
        | cons d before =>
          cases hs
          rw [List.mem_cons, not_or] at hmark
          exact ⟨(before, after), ih.mpr ⟨rfl, hmark.2⟩, rfl⟩

theorem cut?_eq_none_iff {mark : CodePoint} {s : Text} : cut? mark s = none ↔ mark ∉ s := by
  induction s with
  | nil => simp [cut?]
  | cons c s ih =>
    rw [cut?, List.mem_cons, not_or]
    by_cases hc : c = mark
    · simp [hc]
    · simp [hc, Ne.symm hc, ih]

theorem join_append (separator : Text) {parts : List Text} (h : parts ≠ []) (more : List Text) :
    join separator (parts ++ more) =
      join separator parts ++ if more = [] then [] else separator ++ join separator more := by
  induction parts with
  | nil => exact absurd rfl h
  | cons part parts ih =>
    cases parts with
    | nil => cases more <;> simp [join]
    | cons next parts =>
      have hmore := ih (by simp)
      rw [List.cons_append] at hmore
      rw [List.cons_append, List.cons_append, join_cons_cons, hmore, join_cons_cons]
      exact (List.append_assoc _ _ _).symm

theorem mem_join {separator : Text} {parts : List Text} {c : CodePoint}
    (h : c ∈ join separator parts) : c ∈ separator ∨ ∃ part ∈ parts, c ∈ part := by
  induction parts with
  | nil => cases h
  | cons part parts ih =>
    cases parts with
    | nil => exact Or.inr ⟨part, by simp, h⟩
    | cons next parts =>
      rw [join_cons_cons, List.mem_append, List.mem_append] at h
      rcases h with (h | h) | h
      · exact Or.inr ⟨part, by simp, h⟩
      · exact Or.inl h
      · rcases ih h with h | ⟨other, hother, h⟩
        · exact Or.inl h
        · exact Or.inr ⟨other, List.mem_cons_of_mem part hother, h⟩

theorem mem_join_of_mem {separator part : Text} {parts : List Text} {c : CodePoint}
    (hpart : part ∈ parts) (h : c ∈ part) : c ∈ join separator parts := by
  induction parts with
  | nil => cases hpart
  | cons first parts ih =>
    cases parts with
    | nil =>
      rw [List.mem_singleton] at hpart
      exact hpart ▸ h
    | cons next parts =>
      rw [join_cons_cons, List.mem_append, List.mem_append]
      rcases List.mem_cons.mp hpart with rfl | hpart
      · exact Or.inl (Or.inl h)
      · exact Or.inr (ih hpart)

end Text

end ShellPrompt
