import ShellPrompt.Proofs.Render.Run
import ShellPrompt.Proofs.Terminal.Changes
/-!
How lines come about. Whatever the markup says, a line grows from the empty line by texts, resets,
changes of style and new segments; what these ways to go on preserve holds of every line of every
rendering (`IsKept.of_ofMarkup`). So every escape sequence is written from orders, and the tracked
style obeys them.
-/

set_option autoImplicit false

namespace ShellPrompt

/-- The lines that can be drawn, each with the style that is current at its end. -/
inductive Drawn : Line → Style → Prop
  | start : Drawn .empty .plain
  | text {line : Line} {style : Style} (h : Drawn line style) (t : Text) (literal : Bool) :
      Drawn (line.draw (.text t literal)) style
  | escape {line : Line} {style : Style} (h : Drawn line style) {orders : List Order}
      (hne : orders ≠ []) :
      Drawn (line.draw (.escape (orders.map Order.code))) (orders.foldl Style.obey style)
  | startSegment {line : Line} {style : Style} (h : Drawn line style) :
      Drawn line.startSegment style

/-- What holds of the empty line in the plain style, and goes on to hold whatever is drawn next. -/
structure IsKept (Q : Line → Style → Prop) : Prop where
  start : Q .empty .plain
  text {line : Line} {style : Style} (h : Q line style) (t : Text) (literal : Bool) :
    Q (line.draw (.text t literal)) style
  reset {line : Line} {style : Style} (h : Q line style) :
    Q (line.draw (.escape [Style.resetCode])) .plain
  change {line : Line} {style : Style} (h : Q line style) (target : Style)
      (hne : style.codesTo (style.reachable target) ≠ []) :
    Q (line.draw (.escape (style.codesTo (style.reachable target)))) (style.reachable target)
  startSegment {line : Line} {style : Style} (h : Q line style) : Q line.startSegment style

namespace Drawing

theorem changeStyle_eq_or_codesTo (drawing : Drawing) (target : Style) :
    drawing.changeStyle target = drawing ∨
      drawing.style.codesTo (drawing.style.reachable target) ≠ [] ∧
        drawing.changeStyle target =
          { drawing with
            line := drawing.line.draw
              (.escape (drawing.style.codesTo (drawing.style.reachable target)))
            style := drawing.style.reachable target } := by
  by_cases hcodes : drawing.style.codesTo (drawing.style.reachable target) = []
  · -- Nothing differs, so nothing is drawn and the style is the one that would be reached.
    left
    have hreached := Style.codesTo_eq_nil_iff.mp hcodes
    rw [Style.reachable_reachable] at hreached
    simp only [changeStyle, hcodes, List.isEmpty_nil, if_true]
    rw [← hreached]
  · exact Or.inr ⟨hcodes, by simp [changeStyle, hcodes]⟩

theorem changeStyle_eq_or (drawing : Drawing) (target : Style) :
    drawing.changeStyle target = drawing ∨ ∃ orders : List Order, orders ≠ [] ∧
      (drawing.changeStyle target).line =
        drawing.line.draw (.escape (orders.map Order.code)) ∧
      (drawing.changeStyle target).style = orders.foldl Style.obey drawing.style := by
  rcases drawing.changeStyle_eq_or_codesTo target with hsame | ⟨hcodes, hchange⟩
  · exact Or.inl hsame
  · right
    rw [Style.codesTo_eq_map_code] at hcodes hchange
    refine ⟨_, by simpa using hcodes, by rw [hchange], ?_⟩
    rw [hchange, Style.foldl_obey_ordersTo, Style.reachable_reachable]

theorem style_finishLine (width : Int) (drawing : Drawing) :
    (drawing.finishLine width).2.style = .plain ∧
      (drawing.finishLine width).1.segments = (drawing.finishLine width).2.line.segments := by
  by_cases hplain : drawing.style = .plain
  · simp only [finishLine, hplain, if_true, Row.segments_justify, and_self]
  · simp only [finishLine, hplain, if_false, Row.segments_justify, and_true]
    rfl

end Drawing

namespace IsKept

variable {Q : Line → Style → Prop} {drawing : Drawing}

theorem of_changeStyle (hQ : IsKept Q) (h : Q drawing.line drawing.style) (target : Style) :
    Q (drawing.changeStyle target).line (drawing.changeStyle target).style := by
  rcases drawing.changeStyle_eq_or_codesTo target with hsame | ⟨hcodes, hchange⟩
  · rwa [hsame]
  · rw [hchange]
    exact hQ.change h target hcodes

theorem of_transition (hQ : IsKept Q) (h : Q drawing.line drawing.style) (t : Transition)
    (spec : Option Spec) : Q (drawing.transition t spec).line (drawing.transition t spec).style :=
  Drawing.transition_preserves (P := fun drawing => Q drawing.line drawing.style)
    (fun _ glyph _ h => hQ.text h glyph false) (fun _ style h => hQ.of_changeStyle h style)
    (fun _ h => hQ.reset h) spec h

theorem of_apply (hQ : IsKept Q) (h : Q drawing.line drawing.style) (lexeme : Lexeme) :
    Q (drawing.apply lexeme).line (drawing.apply lexeme).style := by
  cases lexeme with
  | segmentBreak => exact hQ.startSegment h
  | whitespace t => exact hQ.text h t false
  | literal t => exact hQ.text h t true
  | reset => exact hQ.reset h
  | transition t spec => exact hQ.of_transition h t spec
  | spec spec => exact hQ.of_changeStyle h _
  | separators | fill | lineBreak => exact h

theorem of_finishLine (hQ : IsKept Q) (h : Q drawing.line drawing.style) (width : Int) :
    Q (drawing.finishLine width).2.line (drawing.finishLine width).2.style := by
  by_cases hplain : drawing.style = .plain
  · simpa only [Drawing.finishLine, hplain, if_true] using h
  · simp only [Drawing.finishLine, hplain, if_false]
    exact hQ.reset h

theorem of_step (hQ : IsKept Q) (width : Int) (drawing : Drawing) (token : Token)
    (h : Q drawing.line drawing.style) :
    Q (Rendering.step width drawing token).2.line (Rendering.step width drawing token).2.style ∧
      ∀ event ∈ (Rendering.step width drawing token).1,
        Q event.drawing.line event.drawing.style := by
  by_cases hbreak : token.lexeme = .lineBreak
  · rw [Rendering.step_of_lineBreak hbreak]
    refine ⟨hQ.start, ?_⟩
    simpa [Event.drawing] using ⟨h, hQ.of_finishLine h width⟩
  · rw [Rendering.step_of_ne_lineBreak hbreak]
    exact ⟨hQ.of_apply h token.lexeme, by simpa [Event.drawing] using h⟩

/-- What is kept holds of the line after any number of tokens, and so it does at every event. -/
theorem of_steps (hQ : IsKept Q) (width : Int) (choices : Choices) (tokens : List Token) :
    Q (Rendering.steps width (.start choices) tokens).2.line
        (Rendering.steps width (.start choices) tokens).2.style ∧
      ∀ event ∈ (Rendering.steps width (.start choices) tokens).1,
        Q event.drawing.line event.drawing.style :=
  @Rendering.steps_preserve width (fun drawing => Q drawing.line drawing.style)
    (fun event => Q event.drawing.line event.drawing.style) (hQ.of_step width) _ hQ.start tokens

theorem of_ofMarkup (hQ : IsKept Q) (width : Int) (choices : Choices) (markup : Text) :
    ∀ event ∈ (Rendering.ofMarkup width choices markup).events,
      Q event.drawing.line event.drawing.style := by
  obtain ⟨hfinal, hevents⟩ := hQ.of_steps width choices (Lexing.ofMarkup markup).tokens
  cases herror : (Lexing.ofMarkup markup).error with
  | some error =>
    rw [Rendering.ofMarkup, Rendering.ofLexing_of_error_eq_some herror]
    exact hevents
  | none =>
    rw [Rendering.ofMarkup, Rendering.ofLexing_of_error_eq_none herror]
    intro event hevent
    rcases List.mem_append.mp hevent with hevent | hevent
    · exact hevents event hevent
    · rw [List.mem_singleton.mp hevent]
      exact hQ.of_finishLine hfinal width

theorem exists_of_mem_rows (hQ : IsKept Q) {width : Int} {choices : Choices} {markup : Text}
    {row : Row} (h : row ∈ (Rendering.ofMarkup width choices markup).rows) :
    ∃ line, Q line .plain ∧ row.segments = line.segments := by
  obtain ⟨event, hevent, hrow⟩ := List.mem_filterMap.mp h
  cases event with
  | token token before => cases hrow
  | line row' after =>
    cases hrow
    have hkept := hQ.of_ofMarkup width choices markup _ hevent
    obtain ⟨before, hfinish⟩ := Rendering.exists_finishLine_of_mem_events hevent
    obtain ⟨hstyle, hsegments⟩ := before.style_finishLine width
    rw [hfinish] at hstyle hsegments
    rw [Event.drawing, hstyle] at hkept
    exact ⟨after.line, hkept, hsegments⟩

end IsKept

theorem Drawn.isKept : IsKept Drawn where
  start := Drawn.start
  text := Drawn.text
  reset := by
    intro line style h
    have hne : ([.reset] : List Order) ≠ [] := by simp
    exact Drawn.escape h hne
  change := by
    intro line style h target hne
    rw [Style.codesTo_eq_map_code] at hne ⊢
    have horders : style.ordersTo (style.reachable target) ≠ [] := by simpa using hne
    have hdrawn := Drawn.escape h horders
    rwa [Style.foldl_obey_ordersTo, Style.reachable_reachable] at hdrawn
  startSegment := Drawn.startSegment

def Drawing.IsDrawn (drawing : Drawing) : Prop :=
  Drawn drawing.line drawing.style

/-- What an event says of lines: its own is drawn, and its row is that line, plain at its end. -/
structure Event.IsDrawn (event : Event) : Prop where
  drawing : event.drawing.IsDrawn
  style : ∀ row, event.row? = some row → event.drawing.style = .plain
  segments : ∀ row, event.row? = some row → row.segments = event.drawing.line.segments

theorem Event.isDrawn_of_finishLine (width : Int) {event : Event} (h : event.drawing.IsDrawn)
    (hrow : ∀ row after, event = .line row after →
      ∃ before : Drawing, before.finishLine width = (row, after)) : event.IsDrawn := by
  cases event with
  | token token before => exact ⟨h, by rintro row ⟨⟩, by rintro row ⟨⟩⟩
  | line row after =>
    obtain ⟨before, hfinish⟩ := hrow row after rfl
    obtain ⟨hstyle, hsegments⟩ := before.style_finishLine width
    rw [hfinish] at hstyle hsegments
    refine ⟨h, fun _ _ => hstyle, ?_⟩
    rintro row' ⟨⟩
    exact hsegments

namespace Rendering

variable {width : Int}

theorem isDrawn_steps (choices : Choices) (tokens : List Token) :
    (steps width (.start choices) tokens).2.IsDrawn ∧
      ∀ event ∈ (steps width (.start choices) tokens).1, event.IsDrawn := by
  obtain ⟨hafter, hevents⟩ := Drawn.isKept.of_steps width choices tokens
  refine ⟨hafter, ?_⟩
  intro event hevent
  refine Event.isDrawn_of_finishLine width (hevents event hevent) ?_
  rintro row after rfl
  exact exists_finishLine_of_mem_steps hevent

theorem isDrawn_ofMarkup (choices : Choices) (markup : Text) :
    ∀ event ∈ (ofMarkup width choices markup).events, event.IsDrawn := by
  intro event hevent
  have hdrawing := Drawn.isKept.of_ofMarkup width choices markup event hevent
  refine Event.isDrawn_of_finishLine width hdrawing ?_
  rintro row after rfl
  exact exists_finishLine_of_mem_events hevent

theorem exists_drawn_of_mem_rows {choices : Choices} {markup : Text} {row : Row}
    (h : row ∈ (ofMarkup width choices markup).rows) :
    ∃ line, Drawn line .plain ∧ row.segments = line.segments :=
  Drawn.isKept.exists_of_mem_rows h

end Rendering

end ShellPrompt
