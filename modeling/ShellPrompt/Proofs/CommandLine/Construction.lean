import ShellPrompt.Proofs.CommandLine.Grammar
/-!
What the construction of a command line has checked: each name of a flag can be read as one, and no
two flags share a name.
-/

set_option autoImplicit false

namespace ShellPrompt

namespace CommandLine

variable {α : Type}

theorem isFlagLike_iff {word : Text} : isFlagLike word = true ↔ IsFlagLike word := by
  cases word with
  | nil => simp [isFlagLike, IsFlagLike]
  | cons c word =>
    cases word with
    | nil => simp [isFlagLike, IsFlagLike]
    | cons d word => simp [isFlagLike, IsFlagLike]

theorem isFlagLike_eq_false_iff {word : Text} : isFlagLike word = false ↔ ¬ IsFlagLike word := by
  rw [← isFlagLike_iff, Bool.not_eq_true]

theorem isFlagLike_of_isName {name : Text} (h : Flag.isName name = true) :
    isFlagLike name = true ∧ name ≠ endOfFlags := by
  simp only [Flag.isName, Bool.and_eq_true, decide_eq_true_eq] at h
  obtain ⟨⟨hone, -⟩, hmore⟩ := h
  constructor
  · rw [isFlagLike_iff]
    cases name with
    | nil => simp [Flag.dashes] at hone
    | cons c rest =>
      by_cases hc : c = CodePoint.ofChar '-'
      · refine ⟨congrArg some hc, ?_⟩
        omega
      · simp [Flag.dashes, hc] at hone
  · rintro rfl
    exact absurd hmore (by decide)

theorem isName_of_checkNames {names : List Text} (h : Flag.checkNames names = .ok ()) :
    ∀ name ∈ names, Flag.isName name = true := by
  intro name hname
  rw [Flag.checkNames.eq_def] at h
  cases hfind : names.find? fun name => !Flag.isName name with
  | some other =>
    rw [hfind] at h
    cases h
  | none =>
    have hnone := List.find?_eq_none.mp hfind name hname
    simpa using hnone

section Construction

variable {declarations : List (Text × Declaration α)} {arguments : List (Text × Argument α)}
  {seen : List Text} {hasRest : Bool}

theorem map_eq_ok_iff {ε β γ : Type} {f : β → γ} {x : Except ε β} {c : γ} :
    x.map f = .ok c ↔ ∃ b, x = .ok b ∧ f b = c := by
  cases x with
  | error e => simp [Except.map]
  | ok b => simp [Except.map]

theorem declarations_of_collect (h : collect seen hasRest declarations = .ok arguments) :
    declarations = arguments.map fun (key, argument) => (key, .argument argument) := by
  fun_induction collect seen hasRest declarations generalizing arguments with
  | case1 =>
    cases h
    rfl
  | case2 => cases h
  | case3 => cases h
  | case4 seen hasRest key declarations _ ih =>
    obtain ⟨more, hmore, rfl⟩ := map_eq_ok_iff.mp h
    rw [ih hmore, List.map_cons]
  | case5 => cases h
  | case6 seen hasRest key flag declarations _ ih =>
    obtain ⟨more, hmore, rfl⟩ := map_eq_ok_iff.mp h
    rw [ih hmore, List.map_cons]

theorem names_of_collect (h : collect seen hasRest declarations = .ok arguments) :
    (∀ argument ∈ arguments, ∀ name ∈ argument.2.names, name ∉ seen) ∧
      arguments.Pairwise fun first second => ∀ name ∈ first.2.names, name ∉ second.2.names := by
  fun_induction collect seen hasRest declarations generalizing arguments with
  | case1 =>
    cases h
    simp
  | case2 => cases h
  | case3 => cases h
  | case4 seen hasRest key declarations _ ih =>
    obtain ⟨more, hmore, rfl⟩ := map_eq_ok_iff.mp h
    obtain ⟨hseen, hpairs⟩ := ih hmore
    refine ⟨?_, ?_⟩
    · intro argument hargument
      rcases List.mem_cons.mp hargument with rfl | hargument
      · simp [Argument.names]
      · exact hseen argument hargument
    · refine List.pairwise_cons.mpr ⟨?_, hpairs⟩
      simp [Argument.names]
  | case5 => cases h
  | case6 seen hasRest key flag declarations hfresh ih =>
    obtain ⟨more, hmore, rfl⟩ := map_eq_ok_iff.mp h
    obtain ⟨hseen, hpairs⟩ := ih hmore
    have hnew : ∀ name ∈ flag.names, name ∉ seen := by
      intro name hname
      simpa using List.find?_eq_none.mp hfresh name hname
    refine ⟨?_, ?_⟩
    · intro argument hargument
      rcases List.mem_cons.mp hargument with rfl | hargument
      · exact hnew
      · intro name hname hold
        exact hseen argument hargument name hname (List.mem_append_left _ hold)
    · refine List.pairwise_cons.mpr ⟨?_, hpairs⟩
      intro argument hargument name hname hother
      exact hseen argument hargument name hother (List.mem_append_right _ hname)

end Construction

/-- A command line all of whose names can be read, each as the name of one flag. -/
structure IsReadable (line : CommandLine α) : Prop where
  names : ∀ key flag, (key, .flag flag) ∈ line.arguments → ∀ name ∈ flag.names,
    Flag.isName name = true
  distinct : line.arguments.Pairwise fun first second =>
    ∀ name ∈ first.2.names, name ∉ second.2.names

theorem isReadable_of_ofDeclarations {usage : Text} {declarations : List (Text × Declaration α)}
    {line : CommandLine α} (h : ofDeclarations usage declarations = .ok line)
    (hflags : ∀ key flag, (key, .argument (.flag flag)) ∈ declarations →
      Flag.ofNames flag.names flag.isSwitch flag.default flag.source = .ok flag) :
    IsReadable line := by
  obtain ⟨arguments, hcollect, rfl⟩ := map_eq_ok_iff.mp h
  refine ⟨?_, (names_of_collect hcollect).2⟩
  intro key flag hmem name hname
  have hdeclared : (key, .argument (.flag flag)) ∈ declarations := by
    rw [declarations_of_collect hcollect]
    exact List.mem_map_of_mem hmem
  obtain ⟨_, hchecked, _⟩ := map_eq_ok_iff.mp (hflags key flag hdeclared)
  exact isName_of_checkNames hchecked name hname

end CommandLine

end ShellPrompt
