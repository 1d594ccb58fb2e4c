import ShellPrompt.Program.Options
import ShellPrompt.Proofs.CommandLine.Values
/-!
A command line accepts exactly the words of its grammar, and gives each argument what the words say
of it. Main statement: `parse_eq_ok_iff`.
-/

set_option autoImplicit false

namespace ShellPrompt

namespace CommandLine

variable {α : Type}

theorem takesRest_iff {line : CommandLine α} :
    line.takesRest = true ↔ ∃ key, (key, .rest) ∈ line.arguments := by
  rw [takesRest, List.any_eq_true]
  constructor
  · rintro ⟨⟨key, argument⟩, hmem, hrest⟩
    cases argument with
    | rest => exact ⟨key, hmem⟩
    | flag flag => cases hrest
  · rintro ⟨key, hmem⟩
    exact ⟨_, hmem, rfl⟩

/-- What is read and what is left over decide what a list of words gives. -/
theorem parse_eq_ok_iff_read {line : CommandLine α} {environment : Environment}
    {words : List Text} {values : List (Text × Value α)} :
    line.parse environment words = .ok values ↔
      ∃ reading, line.read words = .ok reading ∧
        (reading.rest = [] ∨ line.takesRest = true) ∧
        values = line.arguments.map fun (key, argument) =>
          (key, reading.value environment key argument) := by
  rw [parse]
  cases hread : line.read words with
  | error e =>
    simp [bind, Except.bind]
  | ok reading =>
    by_cases hleft : (!line.takesRest && !reading.rest.isEmpty) = true
    · simp only [bind, Except.bind, if_pos hleft]
      simp only [Bool.and_eq_true, Bool.not_eq_true', List.isEmpty_eq_false_iff] at hleft
      constructor
      · intro h
        cases h
      · rintro ⟨other, hother, hallowed, -⟩
        cases hother
        rcases hallowed with hnil | htakes
        · exact absurd hnil hleft.2
        · rw [hleft.1] at htakes
          cases htakes
    · simp only [bind, Except.bind, if_neg hleft]
      have hallowed : reading.rest = [] ∨ line.takesRest = true := by
        cases htakes : line.takesRest with
        | true => exact Or.inr rfl
        | false => exact Or.inl (by simpa [htakes] using hleft)
      constructor
      · intro h
        cases h
        exact ⟨reading, rfl, hallowed, rfl⟩
      · rintro ⟨other, hother, -, rfl⟩
        cases hother
        rfl

theorem parse_eq_ok_iff_exists {line : CommandLine α} (hline : IsReadable line)
    {environment : Environment} {words : List Text} {values : List (Text × Value α)} :
    line.parse environment words = .ok values ↔
      ∃ occurrences rest, Says line.arguments words occurrences rest ∧
        values = line.arguments.map fun (key, argument) =>
          (key, (readingOf occurrences rest).value environment key argument) := by
  rw [parse_eq_ok_iff_read]
  constructor
  · rintro ⟨reading, hread, hallowed, rfl⟩
    obtain ⟨occurrences, tail, hoccurs, htail, hwords, hsame⟩ := exists_occurrences_of_read hread
    have hreading : readingOf occurrences reading.rest = reading := by
      rw [readingOf, ← hsame]
    have htaken := hallowed.imp_right takesRest_iff.mp
    refine ⟨occurrences, reading.rest, ⟨hoccurs, ⟨tail, htail, hwords⟩, htaken⟩, ?_⟩
    rw [hreading]
  · rintro ⟨occurrences, rest, ⟨hoccurs, ⟨tail, htail, rfl⟩, htaken⟩, hvalues⟩
    have hread := read_append_tail hline hoccurs htail
    exact ⟨readingOf occurrences rest, hread, htaken.imp_right takesRest_iff.mpr, hvalues⟩

/--
A list of words is accepted just if it says flag occurrences and a tail, and gives each argument
what it then holds. What is declared is what is read, in the same order.
-/
theorem parse_eq_ok_iff {usage : Text} {declarations : List (Text × Declaration α)}
    {line : CommandLine α} (hline : ofDeclarations usage declarations = .ok line)
    (hflags : ∀ key flag, (key, .argument (.flag flag)) ∈ declarations →
      Flag.ofNames flag.names flag.isSwitch flag.default flag.source = .ok flag)
    (environment : Environment) (words : List Text) :
    declarations = line.arguments.map (fun (key, argument) => (key, .argument argument)) ∧
      ((∃ values, line.parse environment words = .ok values) ↔
        ∃ occurrences rest, Says line.arguments words occurrences rest) ∧
      ∀ values, line.parse environment words = .ok values ↔
        ∃ occurrences rest, Says line.arguments words occurrences rest ∧
          List.Forall₂ (fun argument value => value.1 = argument.1 ∧
            Holds environment occurrences rest argument.1 argument.2 value.2)
            line.arguments values := by
  have hreadable := isReadable_of_ofDeclarations hline hflags
  refine ⟨?_, ?_, ?_⟩
  · obtain ⟨arguments, hcollect, rfl⟩ := map_eq_ok_iff.mp hline
    exact declarations_of_collect hcollect
  · constructor
    · rintro ⟨values, hvalues⟩
      obtain ⟨occurrences, rest, hsays, -⟩ := (parse_eq_ok_iff_exists hreadable).mp hvalues
      exact ⟨occurrences, rest, hsays⟩
    · rintro ⟨occurrences, rest, hsays⟩
      exact ⟨_, (parse_eq_ok_iff_exists hreadable).mpr ⟨occurrences, rest, hsays, rfl⟩⟩
  · intro values
    simp only [parse_eq_ok_iff_exists hreadable, forall₂_holds_iff]

/-- The program's flags by either name, one of them twice, and a dash as a value. -/
theorem parse_eq_ok_iff_program :
    let declarations := Program.commandLine.arguments.map fun (key, argument) =>
      (key, Declaration.argument argument)
    let environment : Environment := ⟨[("TINCT_SEED", "7"), ("TINCT_WIDTH", "9")], [], []⟩
    ofDeclarations Program.usage declarations = .ok Program.commandLine ∧
      (∀ key flag, (key, .argument (.flag flag)) ∈ declarations →
        Flag.ofNames flag.names flag.isSwitch flag.default flag.source = .ok flag) ∧
      Program.commandLine.parse environment
          ["-w", "5", "-V", "--width", "-", "--version", "--", "-x", "--"] =
        .ok [("shell", .fallback ()), ("width", .text "-"), ("seed", .text "7"),
          ("trace", .fallback ()), ("version", .truth true), ("help", .fallback ()),
          ("arguments", .rest ["-x", "--"])] := by
  intro declarations environment
  have hline : ofDeclarations Program.usage declarations = .ok Program.commandLine := rfl
  have hflags : ∀ key flag, (key, .argument (.flag flag)) ∈ declarations →
      Flag.ofNames flag.names flag.isSwitch flag.default flag.source = .ok flag := by
    intro key flag hmem
    simp only [declarations, Program.commandLine, Program.valued, Program.switch, List.map_cons,
      List.map_nil, List.mem_cons, List.not_mem_nil, Prod.mk.injEq, Declaration.argument.injEq,
      Argument.flag.injEq, reduceCtorEq, and_false, or_false] at hmem
    rcases hmem with ⟨-, rfl⟩ | ⟨-, rfl⟩ | ⟨-, rfl⟩ | ⟨-, rfl⟩ | ⟨-, rfl⟩ | ⟨-, rfl⟩ <;> rfl
  have hwidth : ∀ name ∈ (["-w", "--width"] : List Text), ∀ word ∈ (["5", "-"] : List Text),
      IsOccurrence Program.commandLine.arguments ⟨"width", [name, word], .text word⟩ := by
    intro name hname word hword
    have hplain : ¬ IsFlagLike word := by
      rw [← isFlagLike_eq_false_iff]
      revert word
      decide
    have hmem : (("width" : Text), Program.valued ["-w", "--width"] "TINCT_WIDTH") ∈
        Program.commandLine.arguments := by decide +kernel
    exact .valued hmem hname rfl hplain
  have hversion : ∀ name ∈ (["-V", "--version"] : List Text),
      IsOccurrence Program.commandLine.arguments ⟨"version", [name], .truth true⟩ := by
    intro name hname
    have hmem : (("version" : Text), Program.switch ["-V", "--version"]) ∈
        Program.commandLine.arguments := by decide +kernel
    exact .switch hmem hname rfl
  refine ⟨hline, hflags, ((parse_eq_ok_iff hline hflags environment _).2.2 _).mpr ?_⟩
  refine ⟨[⟨"width", ["-w", "5"], .text "5"⟩, ⟨"version", ["-V"], .truth true⟩,
    ⟨"width", ["--width", "-"], .text "-"⟩, ⟨"version", ["--version"], .truth true⟩],
    ["-x", "--"], ⟨?_, ⟨_, .ended _, rfl⟩, Or.inr ⟨"arguments", by decide +kernel⟩⟩, ?_⟩
  · simp only [List.forall_mem_cons, List.not_mem_nil, false_implies, implies_true, and_true]
    exact ⟨hwidth _ (by decide) _ (by decide), hversion _ (by decide),
      hwidth _ (by decide) _ (by decide), hversion _ (by decide)⟩
  · rw [forall₂_holds_iff]
    decide +kernel

end CommandLine

end ShellPrompt
