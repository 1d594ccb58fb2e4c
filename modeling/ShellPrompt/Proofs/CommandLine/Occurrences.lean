import ShellPrompt.Proofs.CommandLine.Construction
/-!
Reading at the level of flag occurrences: an occurrence in front is read as one, whatever follows,
and what is read is a list of occurrences and a tail.
-/

set_option autoImplicit false

namespace ShellPrompt

namespace CommandLine

variable {α : Type} {line : CommandLine α}

theorem mem_of_flag?_eq_some {name key : Text} {flag : Flag α}
    (h : line.flag? name = some (key, flag)) :
    (key, .flag flag) ∈ line.arguments ∧ name ∈ flag.names := by
  obtain ⟨⟨other, argument⟩, hmem, hfound⟩ := List.exists_of_findSome?_eq_some h
  cases argument with
  | rest => cases hfound
  | flag found =>
    by_cases hname : name ∈ found.names
    · simp only [if_pos hname] at hfound
      cases hfound
      exact ⟨hmem, hname⟩
    · simp only [if_neg hname] at hfound
      cases hfound

theorem flag?_eq_some_of_mem {name key : Text} {flag : Flag α}
    (hdistinct : line.arguments.Pairwise fun first second =>
      ∀ name ∈ first.2.names, name ∉ second.2.names)
    (hmem : (key, .flag flag) ∈ line.arguments) (hname : name ∈ flag.names) :
    line.flag? name = some (key, flag) := by
  rw [flag?]
  generalize line.arguments = arguments at hdistinct hmem
  induction arguments with
  | nil => cases hmem
  | cons first rest ih =>
    obtain ⟨hfirst, hrest⟩ := List.pairwise_cons.mp hdistinct
    rw [List.findSome?_cons]
    rcases List.mem_cons.mp hmem with rfl | hlater
    · simp only [if_pos hname]
    · have hfound := ih hrest hlater
      obtain ⟨other, argument⟩ := first
      cases argument with
      | rest => exact hfound
      | flag flag' =>
        have hother : name ∉ flag'.names := by
          intro hsame
          exact hfirst _ hlater name hsame hname
        simp only [if_neg hother]
        exact hfound

theorem read_append_occurrence (hline : IsReadable line) {occurrence : Occurrence α}
    (h : IsOccurrence line.arguments occurrence) (words : List Text) :
    line.read (occurrence.words ++ words) =
      (line.read words).map (Reading.cons occurrence.key occurrence.value) := by
  cases h with
  | @switch key name flag hflag hname hswitch =>
    obtain ⟨hlike, hend⟩ := isFlagLike_of_isName (hline.names key flag hflag name hname)
    have hfound := flag?_eq_some_of_mem hline.distinct hflag hname
    rw [List.singleton_append, read, hlike, hfound, if_neg hend]
    simp [hswitch]
  | @valued key name word flag hflag hname hswitch hword =>
    obtain ⟨hlike, hend⟩ := isFlagLike_of_isName (hline.names key flag hflag name hname)
    have hfound := flag?_eq_some_of_mem hline.distinct hflag hname
    have hplain := isFlagLike_eq_false_iff.mpr hword
    rw [List.cons_append, List.singleton_append, read, hlike, hfound, if_neg hend]
    simp [hswitch, hplain]

theorem read_tail {tail rest : List Text} (h : IsTail tail rest) :
    line.read tail = .ok ⟨[], rest⟩ := by
  cases h with
  | nil => rw [read]
  | ended rest =>
    rw [read]
    rfl
  | plain hword rest =>
    rw [read, isFlagLike_eq_false_iff.mpr hword]
    rfl

def Occurrence.read (occurrence : Occurrence α) : Text × Value α :=
  (occurrence.key, occurrence.value)

theorem read_append_tail (hline : IsReadable line) {occurrences : List (Occurrence α)}
    (h : ∀ occurrence ∈ occurrences, IsOccurrence line.arguments occurrence)
    {tail rest : List Text} (htail : IsTail tail rest) :
    line.read (occurrences.flatMap Occurrence.words ++ tail) =
      .ok ⟨occurrences.map Occurrence.read, rest⟩ := by
  induction occurrences with
  | nil => exact read_tail htail
  | cons occurrence occurrences ih =>
    rw [List.forall_mem_cons] at h
    rw [List.flatMap_cons, List.append_assoc, read_append_occurrence hline h.1, ih h.2]
    rfl

theorem exists_occurrences_of_read {words : List Text} {reading : Reading α}
    (h : line.read words = .ok reading) :
    ∃ (occurrences : List (Occurrence α)) (tail : List Text),
      (∀ occurrence ∈ occurrences, IsOccurrence line.arguments occurrence) ∧
      IsTail tail reading.rest ∧ words = occurrences.flatMap Occurrence.words ++ tail ∧
      reading.occurrences = occurrences.map Occurrence.read := by
  fun_induction read line words generalizing reading with
  | case1 =>
    cases h
    exact ⟨[], [], by simp, .nil, rfl, rfl⟩
  | case2 word words hword =>
    cases h
    have hplain : ¬ IsFlagLike word := by
      rw [← isFlagLike_eq_false_iff]
      simpa using hword
    exact ⟨[], word :: words, by simp, .plain hplain words, rfl, rfl⟩
  | case3 words =>
    cases h
    exact ⟨[], endOfFlags :: words, by simp, .ended words, rfl, rfl⟩
  | case4 => cases h
  | case5 word words _ _ key flag hfound hswitch ih =>
    obtain ⟨after, hafter, rfl⟩ := map_eq_ok_iff.mp h
    obtain ⟨occurrences, tail, hoccurs, htail, hwords, hread⟩ := ih hafter
    obtain ⟨hmem, hname⟩ := mem_of_flag?_eq_some hfound
    refine ⟨⟨key, [word], .truth true⟩ :: occurrences, tail, ?_, htail, ?_, ?_⟩
    · exact List.forall_mem_cons.mpr ⟨.switch hmem hname hswitch, hoccurs⟩
    · rw [hwords]
      rfl
    · simp only [Reading.cons, hread]
      rfl
  | case6 => cases h
  | case7 => cases h
  | case8 word _ _ key flag hfound hswitch value words hvalue ih =>
    obtain ⟨after, hafter, rfl⟩ := map_eq_ok_iff.mp h
    obtain ⟨occurrences, tail, hoccurs, htail, hwords, hread⟩ := ih hafter
    obtain ⟨hmem, hname⟩ := mem_of_flag?_eq_some hfound
    have hplain : ¬ IsFlagLike value := by
      rw [← isFlagLike_iff]
      exact hvalue
    have hvalued := IsOccurrence.valued hmem hname (by simpa using hswitch) hplain
    refine ⟨⟨key, [word, value], .text value⟩ :: occurrences, tail, ?_, htail, ?_, ?_⟩
    · exact List.forall_mem_cons.mpr ⟨hvalued, hoccurs⟩
    · rw [hwords]
      rfl
    · simp only [Reading.cons, hread]
      rfl

end CommandLine

end ShellPrompt
