import Mathlib.Data.List.Forall2
import ShellPrompt.Proofs.CommandLine.Occurrences
/-!
What the arguments hold after some occurrences: the last occurrence of a flag, else its variable,
else its default. Each argument holds one value, and it is the one that a reading gives.
-/

set_option autoImplicit false

namespace ShellPrompt

namespace CommandLine

variable {α : Type} {environment : Environment} {occurrences : List (Occurrence α)}
  {rest : List Text} {key : Text}

def readingOf (occurrences : List (Occurrence α)) (rest : List Text) : Reading α :=
  ⟨occurrences.map Occurrence.read, rest⟩

theorem last?_of_absent (habsent : ∀ occurrence ∈ occurrences, occurrence.key ≠ key) :
    (readingOf occurrences rest).last? key = none := by
  rw [Reading.last?, Option.map_eq_none_iff, List.find?_eq_none]
  intro entry hentry
  obtain ⟨occurrence, hmem, rfl⟩ := List.mem_map.mp (List.mem_reverse.mp hentry)
  exact mt of_decide_eq_true (habsent occurrence hmem)

theorem last?_of_split {before after : List (Occurrence α)} {last : Occurrence α}
    (hkey : last.key = key) (hlast : ∀ later ∈ after, later.key ≠ key) :
    (readingOf (before ++ last :: after) rest).last? key = some last.value := by
  have hnone : (readingOf after rest).last? key = none := last?_of_absent hlast
  rw [Reading.last?, Option.map_eq_none_iff, readingOf] at hnone
  simp only [readingOf, Reading.last?, List.map_append, List.map_cons, List.reverse_append,
    List.reverse_cons, List.find?_append, hnone]
  simp [Occurrence.read, hkey]

theorem exists_last_or_absent (occurrences : List (Occurrence α)) (key : Text) :
    (∃ before last after, occurrences = before ++ last :: after ∧ last.key = key ∧
      ∀ later ∈ after, later.key ≠ key) ∨ ∀ occurrence ∈ occurrences, occurrence.key ≠ key := by
  induction occurrences with
  | nil => exact Or.inr (by simp)
  | cons first occurrences ih =>
    rcases ih with ⟨before, last, after, rfl, hkey, hlast⟩ | habsent
    · exact Or.inl ⟨first :: before, last, after, rfl, hkey, hlast⟩
    · by_cases hfirst : first.key = key
      · exact Or.inl ⟨[], first, occurrences, rfl, hfirst, habsent⟩
      · exact Or.inr (List.forall_mem_cons.mpr ⟨hfirst, habsent⟩)

theorem given_iff {flag : Flag α} {text : Text} :
    flag.source.bind environment.value? = some text ↔
      ∃ source, flag.source = some source ∧ environment.get? source = some text ∧ text ≠ [] := by
  rw [Option.bind_eq_some_iff]
  simp only [Environment.value?, Option.filter_eq_some_iff, Bool.not_eq_true',
    List.isEmpty_eq_false_iff, ne_eq]

theorem initial_of_given {flag : Flag α} {text : Text}
    (h : flag.source.bind environment.value? = some text) :
    flag.initial environment =
      if flag.isSwitch then
        .truth (decide (text.lower ∈ (["1", "true", "yes", "on"] : List Text)))
      else .text text := by
  simp only [Flag.initial, h]
  rw [List.contains_eq_mem]
  rfl

theorem initial_of_unset {flag : Flag α}
    (h : ∀ source text, flag.source = some source → environment.get? source = some text →
      text = []) :
    flag.initial environment = .fallback flag.default := by
  have hnone : flag.source.bind environment.value? = none := by
    rw [Option.eq_none_iff_forall_ne_some]
    intro text hgiven
    obtain ⟨source, hsource, hset, hne⟩ := given_iff.mp hgiven
    exact hne (h source text hsource hset)
  simp only [Flag.initial, hnone]

theorem holds_value (environment : Environment) (occurrences : List (Occurrence α))
    (rest : List Text) (key : Text) (argument : Argument α) :
    Holds environment occurrences rest key argument
      ((readingOf occurrences rest).value environment key argument) := by
  cases argument with
  | rest => exact .rest
  | flag flag =>
    rcases exists_last_or_absent occurrences key with
      ⟨before, last, after, rfl, hkey, hlast⟩ | habsent
    · rw [Reading.value, last?_of_split hkey hlast]
      exact .occurs rfl hkey hlast
    · rw [Reading.value, last?_of_absent habsent, Option.getD_none]
      cases hgiven : flag.source.bind environment.value? with
      | some text =>
        obtain ⟨source, hsource, hset, hne⟩ := given_iff.mp hgiven
        rw [initial_of_given hgiven]
        cases hswitch : flag.isSwitch with
        | true => exact .switchedOn habsent hsource hset hne hswitch
        | false => exact .given habsent hsource hset hne hswitch
      | none =>
        have hunset : ∀ source text, flag.source = some source →
            environment.get? source = some text → text = [] := by
          intro source text hsource hset
          by_cases hne : text = []
          · exact hne
          · rw [given_iff.mpr ⟨source, hsource, hset, hne⟩] at hgiven
            cases hgiven
        rw [initial_of_unset hunset]
        exact .fallback habsent hunset

theorem Holds.eq_value {argument : Argument α} {value : Value α}
    (h : Holds environment occurrences rest key argument value) :
    value = (readingOf occurrences rest).value environment key argument := by
  cases h with
  | rest => rfl
  | occurs hsplit hkey hlast =>
    subst hsplit
    rw [Reading.value, last?_of_split hkey hlast]
    rfl
  | switchedOn habsent hsource hset hne hswitch =>
    have hgiven := given_iff.mpr ⟨_, hsource, hset, hne⟩
    rw [Reading.value, last?_of_absent habsent, Option.getD_none, initial_of_given hgiven,
      if_pos hswitch]
  | given habsent hsource hset hne hswitch =>
    have hgiven := given_iff.mpr ⟨_, hsource, hset, hne⟩
    rw [Reading.value, last?_of_absent habsent, Option.getD_none, initial_of_given hgiven,
      if_neg (by simp [hswitch])]
  | fallback habsent hunset =>
    rw [Reading.value, last?_of_absent habsent, Option.getD_none, initial_of_unset hunset]

theorem forall₂_holds_iff {arguments : List (Text × Argument α)} {values : List (Text × Value α)} :
    List.Forall₂ (fun argument value => value.1 = argument.1 ∧
        Holds environment occurrences rest argument.1 argument.2 value.2) arguments values ↔
      values = arguments.map fun (key, argument) =>
        (key, (readingOf occurrences rest).value environment key argument) := by
  constructor
  · intro h
    induction h with
    | nil => rfl
    | @cons argument value _ _ hfirst _ ih =>
      have hvalue : value = (argument.1, (readingOf occurrences rest).value environment
          argument.1 argument.2) := Prod.ext hfirst.1 hfirst.2.eq_value
      rw [List.map_cons, ← ih, hvalue]
  · rintro rfl
    induction arguments with
    | nil => exact .nil
    | cons first arguments ih => exact .cons ⟨rfl, holds_value _ _ _ _ _⟩ ih

end CommandLine

end ShellPrompt
