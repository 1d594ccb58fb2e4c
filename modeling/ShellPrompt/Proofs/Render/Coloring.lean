import ShellPrompt.Proofs.Render.Segments
/-!
Colors take no columns. A drawing without its escape sequences, style and stack is as wide, repeats
the same characters and makes the same choices; and where no separators are in force, tokens that
only color leave no more than escape sequences. So nothing that is seen depends on these tokens
(`Rendering.rows_without_coloring`).
-/

set_option autoImplicit false

namespace ShellPrompt

namespace Piece

def isText : Piece → Bool
  | escape _ => false
  | text _ _ => true

@[simp] theorem isText_escape (codes : List Text) : (escape codes).isText = false := rfl

@[simp] theorem isText_text (t : Text) (literal : Bool) : (text t literal).isText = true := rfl

end Piece

/-- Whether a token changes the style and says no more than that. -/
def Lexeme.isColoring : Lexeme → Bool
  | reset => true
  | transition _ _ => true
  | spec _ => true
  | _ => false

/-- No glyph is in force among some tokens, so their transitions draw none. -/
def Separators.NoneAmong (lexemes : List Lexeme) : Prop :=
  ∀ separators, .separators separators ∈ lexemes → separators.glyphs = .none

namespace Segment

def uncolored (segment : Segment) : Segment :=
  { segment with pieces := segment.pieces.filter Piece.isText }

variable (segment : Segment)

theorem uncolored_draw_text (t : Text) (literal : Bool) :
    (segment.draw (.text t literal)).uncolored = segment.uncolored.draw (.text t literal) := by
  simp [uncolored, draw]

theorem uncolored_draw_escape (codes : List Text) :
    (segment.draw (.escape codes)).uncolored = segment.uncolored := by
  simp [uncolored, draw]

@[simp] theorem width_uncolored : segment.uncolored.width = segment.width := by
  rcases segment with ⟨inherited, pieces⟩
  induction pieces with
  | nil => rfl
  | cons piece pieces ih =>
    cases piece <;> simpa [uncolored, width, Piece.width, List.filter_cons] using ih

@[simp] theorem lastLiteral_uncolored : segment.uncolored.lastLiteral = segment.lastLiteral := by
  rcases segment with ⟨inherited, pieces⟩
  induction pieces generalizing inherited with
  | nil => rfl
  | cons piece pieces ih =>
    cases piece with
    | escape codes => exact ih inherited
    | text t literal => exact ih ((Piece.text t literal).lastLiteral inherited)

@[simp] theorem uncolored_uncolored : segment.uncolored.uncolored = segment.uncolored := by
  simp [uncolored]

theorem written_raw_uncolored : segment.uncolored.written .raw = segment.visible := by
  rcases segment with ⟨inherited, pieces⟩
  induction pieces with
  | nil => rfl
  | cons piece pieces ih =>
    cases piece with
    | escape codes => exact ih
    | text t literal => exact congrArg (t ++ ·) ih

end Segment

namespace Line

def uncolored (line : Line) : Line :=
  ⟨line.finished.map Segment.uncolored, line.current.uncolored⟩

variable (line : Line)

@[simp] theorem segments_uncolored : line.uncolored.segments = line.segments.map Segment.uncolored := by
  simp [uncolored, segments]

@[simp] theorem width_uncolored : line.uncolored.width = line.width := by
  simp [width, Function.comp_def]

theorem uncolored_startSegment : line.startSegment.uncolored = line.uncolored.startSegment := by
  have hlast : line.uncolored.current.lastLiteral = line.current.lastLiteral :=
    line.current.lastLiteral_uncolored
  rw [startSegment, startSegment, segments_uncolored, hlast]
  rfl

end Line

namespace Row

def uncolored (row : Row) : Row :=
  ⟨row.first.uncolored, row.rest.map (Prod.map id Segment.uncolored)⟩

@[simp] theorem uncolored_uncolored (row : Row) : row.uncolored.uncolored = row.uncolored := by
  simp [uncolored]

theorem fillGaps_uncolored (fill : Fill) (before : Segment) (gaps : List (Nat × Segment))
    (choices : Choices) :
    fillGaps fill before.uncolored (gaps.map (Prod.map id Segment.uncolored)) choices =
      ((fillGaps fill before gaps choices).1.map (Prod.map id Segment.uncolored),
        (fillGaps fill before gaps choices).2) := by
  induction gaps generalizing before choices with
  | nil => rfl
  | cons gap gaps ih =>
    simp only [List.map_cons, fillGaps, Prod.map, Segment.lastLiteral_uncolored, ih, id]

theorem firstAndRest_uncolored (line : Line) :
    line.uncolored.firstAndRest =
      (line.firstAndRest.1.uncolored, line.firstAndRest.2.map Segment.uncolored) := by
  rcases line with ⟨_ | ⟨first, rest⟩, current⟩
  · rfl
  · simp [Line.uncolored, Line.firstAndRest]

theorem justify_uncolored (width : Int) (fill : Fill) (line : Line) (choices : Choices) :
    justify width fill line.uncolored choices =
      ((justify width fill line choices).1.uncolored, (justify width fill line choices).2) := by
  have hfree : freeColumns width line.uncolored = freeColumns width line := by
    rw [freeColumns, freeColumns, Line.width_uncolored]
  simp only [justify, firstAndRest_uncolored, hfree, List.length_map, List.zip_map_right, fillGaps_uncolored]
  rfl

end Row

namespace Drawing

/-- The state without escape sequences and without the styles that they would depend on. -/
def uncolored (drawing : Drawing) : Drawing :=
  { drawing with line := drawing.line.uncolored, style := .plain, stack := [] }

variable (drawing : Drawing)

theorem uncolored_draw_text (t : Text) (literal : Bool) :
    (drawing.text t literal).uncolored = drawing.uncolored.text t literal := by
  have hcurrent := drawing.line.current.uncolored_draw_text t literal
  simp only [uncolored, text, Line.uncolored, Line.draw, hcurrent]

theorem uncolored_reset : drawing.reset.uncolored = drawing.uncolored := by
  have hcurrent := drawing.line.current.uncolored_draw_escape [Style.resetCode]
  simp only [uncolored, reset, Line.uncolored, Line.draw, hcurrent]

theorem uncolored_changeStyle (target : Style) :
    (drawing.changeStyle target).uncolored = drawing.uncolored := by
  rcases drawing.changeStyle_eq_or target with hsame | ⟨orders, -, hline, -⟩
  · rw [hsame]
  · have hcurrent := drawing.line.current.uncolored_draw_escape (orders.map Order.code)
    simp only [uncolored, hline, Line.uncolored, Line.draw, hcurrent]
    rfl

theorem uncolored_apply_of_isColoring (hnone : drawing.separators.glyphs = .none) {lexeme : Lexeme}
    (h : lexeme.isColoring = true) : (drawing.apply lexeme).uncolored = drawing.uncolored := by
  cases lexeme with
  | reset => exact drawing.uncolored_reset
  | spec spec => exact drawing.uncolored_changeStyle _
  | transition t spec =>
    have hglyph : drawing.separators.glyph? t = none := by
      rw [Separators.glyph?, hnone]
      rfl
    refine transition_preserves (P := fun next => next.uncolored = drawing.uncolored) ?_ ?_ ?_ spec
      rfl
    · intro _ glyph hdrawn
      rw [hglyph] at hdrawn
      cases hdrawn
    · exact fun _ _ hnext => (uncolored_changeStyle _ _).trans hnext
    · exact fun _ hnext => (uncolored_reset _).trans hnext
  | separators | fill | segmentBreak | whitespace | literal | lineBreak => cases h

theorem apply_uncolored {lexeme : Lexeme} (h : lexeme.isColoring = false) :
    drawing.uncolored.apply lexeme = (drawing.apply lexeme).uncolored := by
  cases lexeme with
  | reset | spec | transition => cases h
  | whitespace t => exact (drawing.uncolored_draw_text t false).symm
  | literal t => exact (drawing.uncolored_draw_text t true).symm
  | segmentBreak =>
    simp only [apply, uncolored, Line.uncolored_startSegment]
  | separators | fill | lineBreak => rfl

theorem finishLine_uncolored (width : Int) :
    drawing.uncolored.finishLine width =
      ((drawing.finishLine width).1.uncolored, (drawing.finishLine width).2.uncolored) := by
  -- The reset at the end of a line is one of its escape sequences.
  have hplain : ∀ drawing : Drawing,
      let row := Row.justify width drawing.fill drawing.line drawing.choices
      drawing.uncolored.finishLine width = (row.1.uncolored,
        uncolored { drawing with linesWritten := drawing.linesWritten + 1, choices := row.2 }) := by
    intro drawing row
    have hjustify := Row.justify_uncolored width drawing.fill drawing.line drawing.choices
    simp only [finishLine, uncolored, if_true, hjustify]
    rfl
  rw [finishLine.eq_def width drawing]
  by_cases hstyle : drawing.style = .plain
  · rw [if_pos hstyle]
    exact hplain drawing
  · rw [if_neg hstyle, ← drawing.uncolored_reset]
    exact hplain drawing.reset

section Without

variable {drawing}

theorem foldl_apply_uncolored {lexemes : List Lexeme} (hnone : drawing.separators.glyphs = .none)
    (hlexemes : Separators.NoneAmong lexemes) :
    (lexemes.filter fun lexeme => !lexeme.isColoring).foldl apply drawing.uncolored =
        (lexemes.foldl apply drawing).uncolored ∧
      (lexemes.foldl apply drawing).separators.glyphs = .none := by
  induction lexemes generalizing drawing with
  | nil => exact ⟨rfl, hnone⟩
  | cons lexeme lexemes ih =>
    have hnext : (drawing.apply lexeme).separators.glyphs = .none := by
      cases lexeme with
      | separators separators => exact hlexemes separators List.mem_cons_self
      | _ => exact (congrArg Separators.glyphs (drawing.separators_apply rfl)).trans hnone
    have hrest := ih hnext fun separators h => hlexemes separators (List.mem_cons_of_mem _ h)
    rw [List.foldl_cons]
    cases hcoloring : lexeme.isColoring with
    | true =>
      rw [List.filter_cons_of_neg (by simp [hcoloring]),
        ← drawing.uncolored_apply_of_isColoring hnone hcoloring]
      exact hrest
    | false =>
      rw [List.filter_cons_of_pos (by simp [hcoloring]), List.foldl_cons,
        drawing.apply_uncolored hcoloring]
      exact hrest

theorem drawLines_uncolored (width : Int) {lines : List (List Lexeme)}
    (hnone : drawing.separators.glyphs = .none)
    (hlines : ∀ line ∈ lines, Separators.NoneAmong line) :
    drawing.uncolored.drawLines width
        (lines.map (List.filter fun lexeme => !lexeme.isColoring)) =
      (drawing.drawLines width lines).map (Prod.map Row.uncolored uncolored) := by
  induction lines generalizing drawing with
  | nil => rfl
  | cons line lines ih =>
    rw [List.forall_mem_cons] at hlines
    obtain ⟨hline, hglyphs⟩ := foldl_apply_uncolored hnone hlines.1
    have hdrawn : drawing.uncolored.drawLine width
        (line.filter fun lexeme => !lexeme.isColoring) =
          ((drawing.drawLine width line).1.uncolored, (drawing.drawLine width line).2.uncolored) := by
      rw [drawLine, hline, finishLine_uncolored]
      rfl
    have hnext : (drawing.afterLine width line).separators.glyphs = .none :=
      (congrArg Separators.glyphs (finishLine_eq width _).1).trans hglyphs
    have hrest := ih hnext hlines.2
    rw [List.map_cons, drawLines, drawLines, List.map_cons, ← hrest, afterLine, hdrawn]
    rfl

end Without

end Drawing

namespace Rendering

/-- Where no separators are in force, deleting the tokens that color deletes the escape sequences. -/
theorem rows_without_coloring (width : Int) (choices : Choices) {lexing : Lexing}
    (hnone : Separators.NoneAmong (lexing.tokens.map Token.lexeme)) :
    (ofLexing width choices (lexing.without Lexeme.isColoring)).rows =
      (ofLexing width choices lexing).rows.map Row.uncolored := by
  have hlines : ∀ line ∈ lexing.lines, Separators.NoneAmong line :=
    fun line hline separators h => hnone separators (Lexing.mem_of_mem_lines hline h)
  have hdrawn := @Drawing.drawLines_uncolored (.start choices) width _ rfl hlines
  have hstart : (Drawing.start choices).uncolored = .start choices := rfl
  rw [hstart, ← Lexing.lines_without rfl, ← finished_ofLexing, ← finished_ofLexing] at hdrawn
  rw [← map_fst_finished, ← map_fst_finished, hdrawn, List.map_map, List.map_map]
  rfl

end Rendering

end ShellPrompt
