import ShellPrompt.Proofs.Markup.Appending
import ShellPrompt.Proofs.Render.Run
/-!
What a drawing knows beside its line. Separators and fill change only by glyph lists, the number of
lines only where a line ends. The fill is read only there too, and the number is counted and read
nowhere: a run goes the same way after any number of lines and wherever its tokens stand.
-/

set_option autoImplicit false

namespace ShellPrompt

namespace Drawing

/-- The state with changes to what only ends of lines read: fill, choices, number of lines. -/
def mapEnding (onFill : Fill → Fill) (onChoices : Choices → Choices) (onCount : Nat → Nat)
    (drawing : Drawing) : Drawing :=
  { drawing with
    fill := onFill drawing.fill
    choices := onChoices drawing.choices
    linesWritten := onCount drawing.linesWritten }

section Ending

variable (onFill : Fill → Fill) (onChoices : Choices → Choices) (onCount : Nat → Nat)
  (drawing : Drawing)

theorem separate_mapEnding (t : Transition) (spec : Option Spec) (target : Style) :
    (drawing.mapEnding onFill onChoices onCount).separate t spec target =
      ((drawing.separate t spec target).1.mapEnding onFill onChoices onCount,
        (drawing.separate t spec target).2) := by
  have hseparators : (drawing.mapEnding onFill onChoices onCount).separators =
      drawing.separators := rfl
  have hstyle : (drawing.mapEnding onFill onChoices onCount).style = drawing.style := rfl
  rw [separate, separate, hseparators, hstyle]
  cases drawing.separators.glyph? t with
  | none => rfl
  | some glyph =>
    by_cases hbackground : target.background = drawing.style.background
    · simp only [if_pos hbackground]
      rfl
    · simp only [if_neg hbackground]
      rfl

theorem transition_mapEnding (t : Transition) (spec : Option Spec) :
    (drawing.mapEnding onFill onChoices onCount).transition t spec =
      (drawing.transition t spec).mapEnding onFill onChoices onCount := by
  have hstack : ({ drawing.mapEnding onFill onChoices onCount with
      stack := (drawing.destination t spec).2 } : Drawing) =
        ({ drawing with stack := (drawing.destination t spec).2 } : Drawing).mapEnding
          onFill onChoices onCount := rfl
  have hdestination : (drawing.mapEnding onFill onChoices onCount).destination t spec =
      drawing.destination t spec := rfl
  simp only [transition, hdestination, hstack, separate_mapEnding]
  by_cases hpop : t = .pop
  · simp only [if_pos hpop]
    rfl
  · simp only [if_neg hpop]
    rfl

theorem apply_mapEnding {lexeme : Lexeme} (h : lexeme.isFill = false) :
    (drawing.mapEnding onFill onChoices onCount).apply lexeme =
      (drawing.apply lexeme).mapEnding onFill onChoices onCount := by
  cases lexeme with
  | fill => cases h
  | transition t spec => exact drawing.transition_mapEnding onFill onChoices onCount t spec
  | separators | segmentBreak | whitespace | literal | lineBreak | reset | spec => rfl

end Ending

def addLines (count : Nat) (drawing : Drawing) : Drawing :=
  { drawing with linesWritten := drawing.linesWritten + count }

theorem apply_addLines (count : Nat) (drawing : Drawing) (lexeme : Lexeme) :
    (drawing.addLines count).apply lexeme = (drawing.apply lexeme).addLines count := by
  cases lexeme with
  | fill => rfl
  | _ => exact drawing.apply_mapEnding id id (· + count) rfl

theorem finishLine_addLines (width : Int) (count : Nat) (drawing : Drawing) :
    (drawing.addLines count).finishLine width =
      ((drawing.finishLine width).1, (drawing.finishLine width).2.addLines count) := by
  have hstyle : (drawing.addLines count).style = drawing.style := rfl
  rw [finishLine, finishLine, hstyle]
  by_cases hplain : drawing.style = .plain
  · simp only [if_pos hplain]
    simp only [addLines, Nat.add_right_comm]
  · simp only [if_neg hplain]
    simp only [addLines, reset, Nat.add_right_comm]

/-- The same separators, fill and number of lines, whatever the line that is drawn. -/
structure SameContext (drawing other : Drawing) : Prop where
  separators : other.separators = drawing.separators
  fill : other.fill = drawing.fill
  linesWritten : other.linesWritten = drawing.linesWritten

theorem sameContext_transition (drawing : Drawing) (t : Transition) (spec : Option Spec) :
    SameContext drawing (drawing.transition t spec) :=
  transition_preserves (P := SameContext drawing)
    (fun _ _ _ h => ⟨h.separators, h.fill, h.linesWritten⟩)
    (fun _ _ h => ⟨h.separators, h.fill, h.linesWritten⟩)
    (fun _ h => ⟨h.separators, h.fill, h.linesWritten⟩) spec ⟨rfl, rfl, rfl⟩

theorem separators_apply (drawing : Drawing) {lexeme : Lexeme}
    (h : lexeme.isSeparators = false) : (drawing.apply lexeme).separators = drawing.separators := by
  cases lexeme with
  | separators => cases h
  | transition t spec => exact (sameContext_transition drawing t spec).separators
  | fill | segmentBreak | whitespace | literal | lineBreak | reset | spec => rfl

theorem fill_apply (drawing : Drawing) {lexeme : Lexeme} (h : lexeme.isFill = false) :
    (drawing.apply lexeme).fill = drawing.fill := by
  cases lexeme with
  | fill => cases h
  | transition t spec => exact (sameContext_transition drawing t spec).fill
  | separators | segmentBreak | whitespace | literal | lineBreak | reset | spec => rfl

theorem linesWritten_apply (drawing : Drawing) (lexeme : Lexeme) :
    (drawing.apply lexeme).linesWritten = drawing.linesWritten := by
  cases lexeme with
  | transition t spec => exact (sameContext_transition drawing t spec).linesWritten
  | separators | fill | segmentBreak | whitespace | literal | lineBreak | reset | spec => rfl

theorem finishLine_eq (width : Int) (drawing : Drawing) :
    (drawing.finishLine width).2.separators = drawing.separators ∧
      (drawing.finishLine width).2.fill = drawing.fill ∧
      (drawing.finishLine width).2.linesWritten = drawing.linesWritten + 1 := by
  rw [finishLine]
  by_cases hplain : drawing.style = .plain
  · rw [if_pos hplain]
    exact ⟨rfl, rfl, rfl⟩
  · rw [if_neg hplain]
    exact ⟨rfl, rfl, rfl⟩

end Drawing

namespace Event

def moved (distance count : Nat) : Event → Event
  | token t before => token (t.moved distance) (before.addLines count)
  | line row after => line row (after.addLines count)

@[simp] theorem row?_moved (distance count : Nat) (event : Event) :
    (event.moved distance count).row? = event.row? := by
  cases event <;> rfl

end Event

namespace Rendering

theorem step_moved (width : Int) (distance count : Nat) (drawing : Drawing) (token : Token) :
    step width (drawing.addLines count) (token.moved distance) =
      ((step width drawing token).1.map (Event.moved distance count),
        (step width drawing token).2.addLines count) := by
  by_cases hbreak : token.lexeme = .lineBreak
  · have hmoved : (token.moved distance).lexeme = .lineBreak := hbreak
    rw [step_of_lineBreak hbreak, step_of_lineBreak hmoved, Drawing.finishLine_addLines]
    rfl
  · have hmoved : (token.moved distance).lexeme ≠ .lineBreak := hbreak
    rw [step_of_ne_lineBreak hbreak, step_of_ne_lineBreak hmoved]
    exact congrArg (Prod.mk _) (Drawing.apply_addLines count drawing token.lexeme)

/-- A run is the same wherever its tokens stand and however many lines came before. -/
theorem steps_moved (width : Int) (distance count : Nat) (drawing : Drawing)
    (tokens : List Token) :
    steps width (drawing.addLines count) (tokens.map (Token.moved distance)) =
      ((steps width drawing tokens).1.map (Event.moved distance count),
        (steps width drawing tokens).2.addLines count) := by
  induction tokens generalizing drawing with
  | nil => rfl
  | cons token tokens ih =>
    rw [List.map_cons, steps_cons, steps_cons, step_moved, ih, List.map_append]

theorem linesWritten_steps (width : Int) (drawing : Drawing) (tokens : List Token) :
    (steps width drawing tokens).2.linesWritten =
      drawing.linesWritten + ((steps width drawing tokens).1.filterMap Event.row?).length := by
  induction tokens generalizing drawing with
  | nil => rfl
  | cons token tokens ih =>
    rw [steps_cons]
    simp only [ih, List.filterMap_append, List.length_append]
    by_cases hbreak : token.lexeme = .lineBreak
    · have hlines : (step width drawing token).2.linesWritten = drawing.linesWritten + 1 := by
        rw [step_of_lineBreak hbreak]
        exact (drawing.finishLine_eq width).2.2
      have hrows : ((step width drawing token).1.filterMap Event.row?).length = 1 := by
        rw [step_of_lineBreak hbreak]
        rfl
      omega
    · have hlines : (step width drawing token).2.linesWritten = drawing.linesWritten := by
        rw [step_of_ne_lineBreak hbreak]
        exact drawing.linesWritten_apply token.lexeme
      have hrows : ((step width drawing token).1.filterMap Event.row?).length = 0 := by
        rw [step_of_ne_lineBreak hbreak]
        rfl
      omega

theorem steps_last {α : Type} {kind : Lexeme → Bool} {get : Drawing → α} {width : Int}
    (hkeep : ∀ drawing token, kind token.lexeme = false →
      get (step width drawing token).2 = get drawing)
    (hset : ∀ drawing other token, kind token.lexeme = true →
      get (step width drawing token).2 = get (Drawing.apply other token.lexeme))
    (drawing : Drawing) (lexing : Lexing) :
    get (steps width drawing lexing.tokens).2 =
      get (((lexing.last? kind).toList.map Token.lexeme).foldl Drawing.apply drawing) := by
  rw [Lexing.last?]
  induction lexing.tokens using List.reverseRecOn with
  | nil => rfl
  | append_singleton tokens token ih =>
    rw [steps_append, List.reverse_concat, List.find?_cons]
    cases hkind : kind token.lexeme with
    | false =>
      rw [← ih]
      exact hkeep _ token hkind
    | true => exact hset _ drawing token hkind

theorem separators_steps (width : Int) (drawing : Drawing) (lexing : Lexing) :
    (steps width drawing lexing.tokens).2.separators =
      (((lexing.last? Lexeme.isSeparators).toList.map Token.lexeme).foldl Drawing.apply
        drawing).separators := by
  refine steps_last ?_ ?_ drawing lexing
  · intro drawing token h
    by_cases hbreak : token.lexeme = .lineBreak
    · rw [step_of_lineBreak hbreak]
      exact (drawing.finishLine_eq width).1
    · rw [step_of_ne_lineBreak hbreak]
      exact drawing.separators_apply h
  · intro drawing other token h
    cases hlexeme : token.lexeme with
    | separators separators =>
      have hbreak : token.lexeme ≠ .lineBreak := by simp [hlexeme]
      rw [step_of_ne_lineBreak hbreak, hlexeme]
      rfl
    | _ => simp [hlexeme, Lexeme.isSeparators] at h

theorem fill_steps (width : Int) (drawing : Drawing) (lexing : Lexing) :
    (steps width drawing lexing.tokens).2.fill =
      (((lexing.last? Lexeme.isFill).toList.map Token.lexeme).foldl Drawing.apply
        drawing).fill := by
  refine steps_last ?_ ?_ drawing lexing
  · intro drawing token h
    by_cases hbreak : token.lexeme = .lineBreak
    · rw [step_of_lineBreak hbreak]
      exact (drawing.finishLine_eq width).2.1
    · rw [step_of_ne_lineBreak hbreak]
      exact drawing.fill_apply h
  · intro drawing other token h
    cases hlexeme : token.lexeme with
    | fill fill =>
      have hbreak : token.lexeme ≠ .lineBreak := by simp [hlexeme]
      rw [step_of_ne_lineBreak hbreak, hlexeme]
      rfl
    | _ => simp [hlexeme, Lexeme.isFill] at h

theorem last?_isSeparators (lexing : Lexing) :
    (lexing.last? Lexeme.isSeparators).toList.map Token.lexeme = [] ∨ ∃ separators,
      (lexing.last? Lexeme.isSeparators).toList.map Token.lexeme = [.separators separators] := by
  cases hlast : lexing.last? Lexeme.isSeparators with
  | none => exact Or.inl rfl
  | some token =>
    have hkind := List.find?_some hlast
    cases hlexeme : token.lexeme with
    | separators separators => exact Or.inr ⟨separators, by simp [hlexeme]⟩
    | _ => simp [hlexeme, Lexeme.isSeparators] at hkind

theorem last?_isFill (lexing : Lexing) :
    (lexing.last? Lexeme.isFill).toList.map Token.lexeme = [] ∨ ∃ fill,
      (lexing.last? Lexeme.isFill).toList.map Token.lexeme = [.fill fill] := by
  cases hlast : lexing.last? Lexeme.isFill with
  | none => exact Or.inl rfl
  | some token =>
    have hkind := List.find?_some hlast
    cases hlexeme : token.lexeme with
    | fill fill => exact Or.inr ⟨fill, by simp [hlexeme]⟩
    | _ => simp [hlexeme, Lexeme.isFill] at hkind

theorem foldl_apply_carriedLexemes (width : Int) (choices others : Choices) (lexing : Lexing) :
    lexing.carriedLexemes.foldl Drawing.apply (.start others) =
      { Drawing.start others with
        separators := (steps width (.start choices) lexing.tokens).2.separators
        fill := (steps width (.start choices) lexing.tokens).2.fill } := by
  rw [separators_steps, fill_steps, Lexing.carriedLexemes, List.map_append, List.foldl_append]
  rcases last?_isSeparators lexing with hseparators | ⟨separators, hseparators⟩ <;>
    rcases last?_isFill lexing with hfill | ⟨fill, hfill⟩ <;>
      rw [hseparators, hfill] <;> rfl

/-- The next line begins as the first one does after the carried tokens, but for its number. -/
theorem startLine_finishLine_steps (width : Int) (choices : Choices) (lexing : Lexing) :
    let finished := ((steps width (.start choices) lexing.tokens).2.finishLine width).2
    finished.startLine =
      (lexing.carriedLexemes.foldl Drawing.apply (.start finished.choices)).addLines
        finished.linesWritten := by
  intro finished
  obtain ⟨hseparators, hfill, _⟩ :=
    (steps width (.start choices) lexing.tokens).2.finishLine_eq width
  rw [foldl_apply_carriedLexemes width choices, ← hseparators, ← hfill]
  simp only [Drawing.startLine, Drawing.addLines, Drawing.start, Nat.zero_add]
  rfl

theorem steps_of_ne_lineBreak (width : Int) (drawing : Drawing) {tokens : List Token}
    (h : ∀ lexeme ∈ tokens.map Token.lexeme, lexeme ≠ .lineBreak) :
    (steps width drawing tokens).1.filterMap Event.row? = [] ∧
      (steps width drawing tokens).2 = (tokens.map Token.lexeme).foldl Drawing.apply drawing := by
  induction tokens generalizing drawing with
  | nil => exact ⟨rfl, rfl⟩
  | cons token tokens ih =>
    rw [List.map_cons, List.forall_mem_cons] at h
    obtain ⟨hrows, hfinal⟩ := ih (drawing.apply token.lexeme) h.2
    rw [steps_cons, step_of_ne_lineBreak h.1]
    exact ⟨hrows, hfinal⟩

end Rendering

end ShellPrompt
