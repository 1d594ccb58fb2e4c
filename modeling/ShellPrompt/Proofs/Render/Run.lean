import ShellPrompt.Render.Rendering
/-!
Runs of the renderer. A run over tokens is cut at any token; what one token preserves, and what
one finished line says, holds along the whole run, also where a fault ends it.
-/

set_option autoImplicit false

namespace ShellPrompt

namespace Drawing

variable {P : Drawing → Prop} {drawing : Drawing} {t : Transition}

theorem separate_preserves
    (htext : ∀ drawing' glyph, drawing.separators.glyph? t = some glyph → P drawing' →
      P (drawing'.text glyph false))
    (hchange : ∀ drawing' style, P drawing' → P (drawing'.changeStyle style)) (h : P drawing)
    (spec : Option Spec) (target : Style) : P (drawing.separate t spec target).1 := by
  rw [separate]
  cases hglyph : drawing.separators.glyph? t with
  | none => exact h
  | some glyph =>
    by_cases hbackground : target.background = drawing.style.background
    · simp only [if_pos hbackground]
      exact htext _ glyph hglyph h
    · simp only [if_neg hbackground]
      exact htext _ glyph hglyph (hchange _ _ h)

theorem transition_preserves
    (htext : ∀ drawing' glyph, drawing.separators.glyph? t = some glyph → P drawing' →
      P (drawing'.text glyph false))
    (hchange : ∀ drawing' style, P drawing' → P (drawing'.changeStyle style))
    (hreset : ∀ drawing', P drawing' → P drawing'.reset) (spec : Option Spec)
    (h : P { drawing with stack := (drawing.destination t spec).2 }) :
    P (drawing.transition t spec) := by
  have hseparate := @separate_preserves P { drawing with stack := (drawing.destination t spec).2 } t
    htext hchange h spec (drawing.destination t spec).1
  simp only [transition]
  by_cases hpop : t = .pop
  · rw [if_pos hpop]
    exact hchange _ _ (hreset _ hseparate)
  · rw [if_neg hpop]
    exact hchange _ _ hseparate

end Drawing

namespace Rendering

theorem step_of_lineBreak {width : Int} {drawing : Drawing} {token : Token}
    (h : token.lexeme = .lineBreak) :
    step width drawing token =
      ([.token token drawing, .line (drawing.finishLine width).1 (drawing.finishLine width).2],
        (drawing.finishLine width).2.startLine) := by
  simp only [step, h]

theorem step_of_ne_lineBreak {width : Int} {drawing : Drawing} {token : Token}
    (h : token.lexeme ≠ .lineBreak) :
    step width drawing token = ([.token token drawing], drawing.apply token.lexeme) := by
  rw [step]
  split
  · exact absurd ‹_› h
  · rfl

@[simp] theorem steps_nil (width : Int) (drawing : Drawing) :
    steps width drawing [] = ([], drawing) := rfl

theorem steps_cons (width : Int) (drawing : Drawing) (token : Token) (tokens : List Token) :
    steps width drawing (token :: tokens) =
      ((step width drawing token).1 ++ (steps width (step width drawing token).2 tokens).1,
        (steps width (step width drawing token).2 tokens).2) := rfl

theorem steps_append (width : Int) (drawing : Drawing) (tokens more : List Token) :
    steps width drawing (tokens ++ more) =
      ((steps width drawing tokens).1 ++ (steps width (steps width drawing tokens).2 more).1,
        (steps width (steps width drawing tokens).2 more).2) := by
  induction tokens generalizing drawing with
  | nil => simp
  | cons token tokens ih => simp [steps_cons, ih]

/-- What every token preserves holds after any number of them, and its events are as each says. -/
theorem steps_preserve {width : Int} {Inv : Drawing → Prop} {Says : Event → Prop}
    (hstep : ∀ drawing token, Inv drawing →
      Inv (step width drawing token).2 ∧ ∀ event ∈ (step width drawing token).1, Says event)
    {drawing : Drawing} (h : Inv drawing) (tokens : List Token) :
    Inv (steps width drawing tokens).2 ∧ ∀ event ∈ (steps width drawing tokens).1, Says event := by
  induction tokens generalizing drawing with
  | nil => exact ⟨h, by simp⟩
  | cons token tokens ih =>
    obtain ⟨hnext, hevents⟩ := hstep drawing token h
    obtain ⟨hfinal, hmore⟩ := ih hnext
    rw [steps_cons]
    refine ⟨hfinal, ?_⟩
    intro event hevent
    rcases List.mem_append.mp hevent with hevent | hevent
    · exact hevents event hevent
    · exact hmore event hevent

theorem ofLexing_of_error_eq_none {width : Int} {choices : Choices} {lexing : Lexing}
    (h : lexing.error = none) :
    ofLexing width choices lexing =
      let before := steps width (.start choices) lexing.tokens
      let last := before.2.finishLine width
      ⟨before.1 ++ [.line last.1 last.2], last.2, none⟩ := by
  simp only [ofLexing, h]

theorem ofLexing_of_error_eq_some {width : Int} {choices : Choices} {lexing : Lexing}
    {error : MarkupError} (h : lexing.error = some error) :
    ofLexing width choices lexing =
      let before := steps width (.start choices) lexing.tokens
      ⟨before.1, before.2, some error⟩ := by
  simp only [ofLexing, h]

section Lines

variable {width : Int} {drawing : Drawing} {row : Row} {after : Drawing}

theorem finishLine_of_mem_step {token : Token}
    (h : Event.line row after ∈ (step width drawing token).1) :
    drawing.finishLine width = (row, after) := by
  by_cases hbreak : token.lexeme = .lineBreak
  · rw [step_of_lineBreak hbreak] at h
    rcases List.mem_cons.mp h with h | h
    · cases h
    · cases List.mem_singleton.mp h
      rfl
  · rw [step_of_ne_lineBreak hbreak] at h
    cases List.mem_singleton.mp h

theorem exists_finishLine_of_mem_steps {tokens : List Token}
    (h : Event.line row after ∈ (steps width drawing tokens).1) :
    ∃ before : Drawing, before.finishLine width = (row, after) := by
  induction tokens generalizing drawing with
  | nil => cases h
  | cons token tokens ih =>
    rw [steps_cons] at h
    rcases List.mem_append.mp h with h | h
    · exact ⟨drawing, finishLine_of_mem_step h⟩
    · exact ih h

theorem exists_finishLine_of_mem_events {choices : Choices} {markup : Text}
    (h : Event.line row after ∈ (ofMarkup width choices markup).events) :
    ∃ before : Drawing, before.finishLine width = (row, after) := by
  rw [ofMarkup] at h
  cases herror : (Lexing.ofMarkup markup).error with
  | some error =>
    rw [ofLexing_of_error_eq_some herror] at h
    exact exists_finishLine_of_mem_steps h
  | none =>
    rw [ofLexing_of_error_eq_none herror] at h
    rcases List.mem_append.mp h with h | h
    · exact exists_finishLine_of_mem_steps h
    · cases List.mem_singleton.mp h
      exact ⟨_, rfl⟩

theorem finishLine_mem_events (width : Int) (choices : Choices) {markup : Text}
    (h : (Lexing.ofMarkup markup).error = none) :
    let last := (steps width (.start choices) (Lexing.ofMarkup markup).tokens).2.finishLine width
    Event.line last.1 last.2 ∈ (ofMarkup width choices markup).events := by
  rw [ofMarkup, ofLexing_of_error_eq_none h]
  exact List.mem_append_right _ (List.mem_singleton.mpr rfl)

end Lines

end Rendering

namespace Row

theorem map_snd_fillGaps (fill : Fill) (before : Segment) (gaps : List (Nat × Segment))
    (choices : Choices) :
    (fillGaps fill before gaps choices).1.map Prod.snd = gaps.map Prod.snd := by
  induction gaps generalizing before choices with
  | nil => rfl
  | cons gap gaps ih => simp [fillGaps, ih]

@[simp] theorem length_shares (total count : Nat) : (shares total count).length = count := by
  simp [shares]

theorem segments_justify (width : Int) (fill : Fill) (line : Line) (choices : Choices) :
    (justify width fill line choices).1.segments = line.segments := by
  have hsnd : ((shares (freeColumns width line) line.firstAndRest.2.length).zip
      line.firstAndRest.2).map Prod.snd = line.firstAndRest.2 := by
    rw [List.map_snd_zip]
    simp
  rw [segments, justify, map_snd_fillGaps, hsnd, Line.firstAndRest, Line.segments]
  cases line.finished <;> rfl

end Row

end ShellPrompt
