import ShellPrompt.Proofs.Guarded.Rendering
import ShellPrompt.Proofs.Markup.Acceptance
import ShellPrompt.Proofs.Markup.Cutting
import ShellPrompt.Proofs.Render.LineBreaks
/-!
Renderings that a fault ends. What is written is what the markup before the last line break writes,
and a renderer goes on after a fault as one that was not used. Main statement: `render_is_clean`.
-/

set_option autoImplicit false

namespace ShellPrompt

namespace Rendering

variable {width : Int} {drawing : Drawing} {choices : Choices} {lexing : Lexing}
  {before after : List Token} {lineBreak : Token} {error : MarkupError}

theorem length_rows_steps (width : Int) (drawing : Drawing) (tokens : List Token) :
    ((steps width drawing tokens).1.filterMap Event.row?).length =
      tokens.countP fun token => token.lexeme = .lineBreak := by
  induction tokens generalizing drawing with
  | nil => rfl
  | cons token tokens ih =>
    rw [steps_cons, List.filterMap_append, List.length_append, ih, List.countP_cons, Nat.add_comm]
    congr 1
    by_cases hbreak : token.lexeme = .lineBreak
    · rw [step_of_lineBreak hbreak, if_pos (decide_eq_true hbreak)]
      rfl
    · rw [step_of_ne_lineBreak hbreak, if_neg (by simpa using hbreak)]
      rfl

theorem linesWritten_of_fault (herror : lexing.error = some error) :
    (ofLexing width choices lexing).final.linesWritten =
      lexing.tokens.countP fun token => token.lexeme = .lineBreak := by
  rw [ofLexing_of_error_eq_some herror]
  have hlines := linesWritten_steps width (.start choices) lexing.tokens
  rw [length_rows_steps] at hlines
  exact hlines.trans (Nat.zero_add _)

theorem rows_of_fault_without_lineBreak (herror : lexing.error = some error)
    (hnone : ∀ token ∈ lexing.tokens, token.lexeme ≠ .lineBreak) :
    (ofLexing width choices lexing).rows = [] := by
  have hlexemes : ∀ lexeme ∈ lexing.tokens.map Token.lexeme, lexeme ≠ .lineBreak := by
    intro lexeme hlexeme
    obtain ⟨token, htoken, rfl⟩ := List.mem_map.mp hlexeme
    exact hnone token htoken
  rw [ofLexing_of_error_eq_some herror]
  exact (steps_of_ne_lineBreak width (.start choices) hlexemes).1

/-- The rows that a fault leaves are those of the tokens before the last line break, finished. -/
theorem rows_of_fault (herror : lexing.error = some error)
    (htokens : lexing.tokens = before ++ lineBreak :: after)
    (hbreak : lineBreak.lexeme = .lineBreak)
    (hlast : ∀ token ∈ after, token.lexeme ≠ .lineBreak) :
    (ofLexing width choices lexing).rows = (ofLexing width choices ⟨before, none⟩).rows := by
  have hlexemes : ∀ lexeme ∈ after.map Token.lexeme, lexeme ≠ .lineBreak := by
    intro lexeme hlexeme
    obtain ⟨token, htoken, rfl⟩ := List.mem_map.mp hlexeme
    exact hlast token htoken
  rw [ofLexing_of_error_eq_some herror, ofLexing_of_error_eq_none rfl, htokens]
  simp only [rows, steps_append, steps_cons, step_of_lineBreak hbreak, List.filterMap_append,
    (steps_of_ne_lineBreak width _ hlexemes).1, List.append_nil]
  rfl

end Rendering

namespace Renderer

open Rendering

theorem render_ofChoices (width : Int) (choices : Choices) (markup : Text) :
    (ofChoices width choices).render markup = Rendering.ofMarkup width choices markup := rfl

theorem render_eq_render_ofChoices (renderer : Renderer) (markup : Text) :
    renderer.render markup =
      (ofChoices renderer.width renderer.drawing.choices).render markup := rfl

theorem width_foldl_after (renderer : Renderer) (earlier : List Text) :
    (earlier.foldl after renderer).width = renderer.width := by
  induction earlier generalizing renderer with
  | nil => rfl
  | cons markup earlier ih => exact ih (renderer.after markup)

/--
Whatever a renderer was used for, it renders without slips, and as one that was not used does with
the same width and choices. A fault is one of the markup. The lines that it leaves are counted, and
they are all that the markup before the last line break writes; without a line break there are none.
-/
theorem render_is_clean (width : Int) (choices : Choices) (earlier : List Text) (markup : Text) :
    let renderer := earlier.foldl after (ofChoices width choices)
    let rendering := renderer.render markup
    Guarded.render renderer markup = .ok rendering ∧
      rendering = (ofChoices width renderer.drawing.choices).render markup ∧
      ∀ error, rendering.error = some error →
        error.markup = markup ∧ error.position ≤ markup.length ∧
        let tokens := (Lexing.ofMarkup markup).tokens
        rendering.final.linesWritten =
            tokens.countP (fun token => token.lexeme = .lineBreak) ∧
          ((∀ token ∈ tokens, token.lexeme ≠ .lineBreak) → ∀ mode, rendering.output mode = []) ∧
          ∀ before lineBreak after, tokens = before ++ lineBreak :: after →
            lineBreak.lexeme = .lineBreak → (∀ token ∈ after, token.lexeme ≠ .lineBreak) →
            let whole := (ofChoices width renderer.drawing.choices).render
              (markup.take lineBreak.start)
            whole.error = none ∧ ∀ mode, rendering.output mode = whole.output mode := by
  intro renderer rendering
  have hfresh : rendering = Rendering.ofMarkup width renderer.drawing.choices markup := by
    have hwidth : renderer.width = width := width_foldl_after (ofChoices width choices) earlier
    rw [← hwidth]
    exact render_eq_render_ofChoices renderer markup
  refine ⟨Guarded.render_eq renderer markup, hfresh, ?_⟩
  intro error herror
  rw [hfresh] at herror ⊢
  have hlexing : (Lexing.ofMarkup markup).error = some error := by
    cases hnone : (Lexing.ofMarkup markup).error with
    | none =>
      rw [Rendering.ofMarkup, ofLexing_of_error_eq_none hnone] at herror
      cases herror
    | some found =>
      rw [Rendering.ofMarkup, ofLexing_of_error_eq_some hnone] at herror
      exact herror
  obtain ⟨hmarkup, -, hposition⟩ := Lexing.bounds_of_error_ofRest hlexing
  rw [Nat.zero_add] at hposition
  refine ⟨hmarkup, hposition, linesWritten_of_fault hlexing, ?_, ?_⟩
  · intro hnone mode
    rw [output, Rendering.ofMarkup, rows_of_fault_without_lineBreak hlexing hnone]
    rfl
  · intro before lineBreak after htokens hbreak hlast
    obtain ⟨front, rest, hsplit, hstart, hfront⟩ := Lexing.ofRest_before_lineBreak htokens hbreak
      (markup.take lineBreak.start)
    have htake : markup.take lineBreak.start = front := by
      rw [hstart, Nat.zero_add, hsplit]
      exact List.take_left
    have hwhole : (ofChoices width renderer.drawing.choices).render (markup.take lineBreak.start) =
        ofLexing width renderer.drawing.choices ⟨before, none⟩ := by
      rw [render_ofChoices, Rendering.ofMarkup, Lexing.ofMarkup]
      rw [htake] at hfront ⊢
      rw [hfront]
    rw [hwhole]
    refine ⟨by rw [ofLexing_of_error_eq_none rfl], ?_⟩
    intro mode
    rw [output, output, Rendering.ofMarkup, rows_of_fault hlexing htokens hbreak hlast]

/-- A fault in the second line, after a rendering that a fault left with glyphs and a stack. -/
theorem render_is_clean_second_line :
    let markup : Text := "\"a\"*\"b\"|\x7b\"c\"?"
    let renderer := (["S(<,>)F(-)|\x7b\"x\"?"] : List Text).foldl after (ofChoices 5 (.cycle [0]))
    let whole := (ofChoices 5 renderer.drawing.choices).render (markup.take 7)
    (renderer.render markup).error = some ⟨markup, 12, .unrecognized '?'⟩ ∧
      (renderer.render markup).final.linesWritten = 1 ∧ whole.error = none ∧
      ∀ mode, (renderer.render markup).output mode = whole.output mode := by
  intro markup renderer whole
  have herror : (renderer.render markup).error = some ⟨markup, 12, .unrecognized '?'⟩ := by
    decide +kernel
  have hfault := (render_is_clean 5 (.cycle [0]) ["S(<,>)F(-)|\x7b\"x\"?"] markup).2.2
  obtain ⟨-, -, hlines, -, hcut⟩ := hfault _ herror
  have htokens : (Lexing.ofMarkup markup).tokens = (Lexing.ofMarkup markup).tokens.take 3 ++
      ⟨7, ['|'], .lineBreak⟩ :: (Lexing.ofMarkup markup).tokens.drop 4 := by decide +kernel
  obtain ⟨hwhole, houtput⟩ := hcut _ _ _ htokens rfl (by decide +kernel)
  exact ⟨herror, hlines.trans (by decide +kernel), hwhole, houtput⟩

end Renderer

end ShellPrompt
