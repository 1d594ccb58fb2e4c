import ShellPrompt.Proofs.Render.Coloring
import ShellPrompt.Proofs.Render.Gaps
/-!
The texts of lines. What the tokens of a line draw is on it once and in their order, each token's
text in the segment that it stands in; only escape sequences and the fills of gaps are added. What is
drawn does not depend on the width and the fill, so a line without gaps does not either. Main
statement: `Rendering.texts_are_kept`.
-/

set_option autoImplicit false

namespace ShellPrompt

namespace Row

theorem eq_of_segments_eq {row other : Row} (hsegments : row.segments = other.segments)
    (hrest : row.segments.length = 1) : row = other := by
  rcases row with ⟨first, _ | ⟨gap, rest⟩⟩
  · rcases other with ⟨first', _ | ⟨gap', rest'⟩⟩
    · simpa [segments] using hsegments
    · simp [segments] at hsegments
  · simp [segments] at hrest

end Row

namespace Drawing

/-- The state, but with a fill, choices and a number of lines as another one has them. -/
def endingAs (drawing other : Drawing) : Drawing :=
  drawing.mapEnding (fun _ => other.fill) (fun _ => other.choices) (fun _ => other.linesWritten)

theorem foldl_apply_endingAs (drawing other : Drawing) (lexemes : List Lexeme) :
    (lexemes.filter fun lexeme => !lexeme.isFill).foldl apply (drawing.endingAs other) =
      (lexemes.foldl apply drawing).endingAs other := by
  induction lexemes generalizing drawing with
  | nil => rfl
  | cons lexeme lexemes ih =>
    rw [List.foldl_cons, ← ih]
    cases hfill : lexeme.isFill with
    | true =>
      rw [List.filter_cons_of_neg (by simp [hfill])]
      cases lexeme with
      | fill fill => rfl
      | _ => cases hfill
    | false =>
      rw [List.filter_cons_of_pos (by simp [hfill]), List.foldl_cons, endingAs, endingAs,
        drawing.apply_mapEnding _ _ _ hfill]

theorem segments_finishLine (width : Int) (drawing : Drawing) :
    (drawing.finishLine width).1.segments =
      (if drawing.style = .plain then drawing.line else drawing.reset.line).segments := by
  rw [finishLine]
  by_cases hplain : drawing.style = .plain
  · rw [if_pos hplain, if_pos hplain]
    exact Row.segments_justify _ _ _ _
  · rw [if_neg hplain, if_neg hplain]
    exact Row.segments_justify _ _ _ _

theorem segments_drawLine_eq {drawing other : Drawing} {lexemes otherLexemes : List Lexeme}
    (width otherWidth : Int)
    (hbegin : drawing.startLine = drawing) (hother : other.startLine = other)
    (hseparators : drawing.separators = other.separators)
    (hlexemes : lexemes.filter (fun lexeme => !lexeme.isFill) =
      otherLexemes.filter fun lexeme => !lexeme.isFill) :
    (drawing.drawLine width lexemes).1.segments =
      (other.drawLine otherWidth otherLexemes).1.segments := by
  have hstart : drawing.endingAs other = other.endingAs other := by
    have hline : drawing.startLine.endingAs other = other.startLine.endingAs other := by
      simp only [endingAs, mapEnding, startLine, hseparators]
    rwa [hbegin, hother] at hline
  have hsame : (lexemes.foldl apply drawing).endingAs other =
      (otherLexemes.foldl apply other).endingAs other := by
    rw [← foldl_apply_endingAs, ← foldl_apply_endingAs, hstart, hlexemes]
  have hline : (lexemes.foldl apply drawing).line = (otherLexemes.foldl apply other).line :=
    (congrArg Drawing.line hsame :)
  have hstyle : (lexemes.foldl apply drawing).style = (otherLexemes.foldl apply other).style :=
    (congrArg Drawing.style hsame :)
  rw [drawLine, drawLine, segments_finishLine, segments_finishLine, hstyle, reset, reset, hline]

variable {width : Int} {drawing after : Drawing} {lexemes : List Lexeme} {row : Row}

theorem exists_line_of_drawLine (hdrawn : drawing.drawLine width lexemes = (row, after)) :
    ∃ line : Line, row.segments = line.segments ∧
      line.finished = (lexemes.foldl apply drawing).line.finished ∧
      line.visible = (lexemes.foldl apply drawing).line.visible := by
  obtain ⟨line, hfinished, hvisible, hrow, -⟩ :=
    (lexemes.foldl apply drawing).exists_justify_of_finishLine width
  rw [show (lexemes.foldl apply drawing).finishLine width = (row, after) from hdrawn] at hrow
  have hsegments : row.segments = _ := congrArg Row.segments hrow
  rw [Row.segments_justify] at hsegments
  exact ⟨line, hsegments, hfinished, hvisible⟩

section Beginning

variable (hbegin : drawing.startLine = drawing)
include hbegin

theorem visible_drawLine (hdrawn : drawing.drawLine width lexemes = (row, after)) :
    row.segments.length = lexemes.count .segmentBreak + 1 ∧
      row.segments.flatMap Segment.visible = Lexeme.drawnText drawing.separators lexemes := by
  obtain ⟨line, hsegments, hfinished, hvisible⟩ := exists_line_of_drawLine hdrawn
  refine ⟨?_, ?_⟩
  · rw [hsegments, Line.segments, List.length_append, hfinished, length_finished_of_startLine hbegin]
    rfl
  · rw [hsegments, ← visible_of_startLine hbegin]
    exact hvisible

theorem visible_take_drawLine (hdrawn : drawing.drawLine width lexemes = (row, after))
    {front back : List Lexeme} (hbreak : lexemes = front ++ .segmentBreak :: back) :
    (row.segments.take (front.count .segmentBreak + 1)).flatMap Segment.visible =
      Lexeme.drawnText drawing.separators front := by
  obtain ⟨line, hsegments, hfinished, -⟩ := exists_line_of_drawLine hdrawn
  obtain ⟨more, hmore⟩ := drawing.finished_eq_append_of_segmentBreak front back
  rw [← hbreak] at hmore
  have hlength : (front.foldl apply drawing).line.segments.length =
      front.count .segmentBreak + 1 := by
    rw [Line.segments, List.length_append, length_finished_of_startLine hbegin]
    rfl
  rw [hsegments, Line.segments, hfinished, hmore, List.append_assoc, ← hlength, List.take_left]
  exact visible_of_startLine hbegin front

end Beginning

end Drawing

theorem Separators.inForce_filter_isFill (lexemes : List Lexeme) :
    inForce (lexemes.filter fun lexeme => !lexeme.isFill) = inForce lexemes := by
  rw [inForce, inForce, List.filterMap_filter]
  congr 3
  funext lexeme
  cases lexeme <;> rfl

namespace Rendering

theorem exists_row (width : Int) (choices : Choices) {lexing : Lexing} {n : Nat}
    {line : List Lexeme} (hline : lexing.lines[n]? = some line) :
    ∃ (drawing after : Drawing) (row : Row),
      (ofLexing width choices lexing).rows[n]? = some row ∧
      drawing.drawLine width line = (row, after) ∧ drawing.startLine = drawing ∧
      drawing.separators = Separators.inForce (lexing.lines.take n).flatten := by
  have hfinished := @getElem?_finished width choices lexing n
  rw [hline, Option.map_some] at hfinished
  obtain ⟨drawing, hdrawn, hbegin, hseparators, -, -⟩ := exists_drawLine hline hfinished
  refine ⟨drawing, _, _, ?_, hdrawn, hbegin, hseparators⟩
  rw [← map_fst_finished, List.getElem?_map, hfinished]
  rfl

theorem getElem?_rows_eq (width otherWidth : Int) (choices otherChoices : Choices)
    {lexing other : Lexing}
    (h : (other.without Lexeme.isFill).lines = (lexing.without Lexeme.isFill).lines) {n : Nat}
    {line : List Lexeme} (hline : lexing.lines[n]? = some line)
    (hbreak : Lexeme.segmentBreak ∉ line) :
    (ofLexing otherWidth otherChoices other).rows[n]? = (ofLexing width choices lexing).rows[n]? := by
  rw [Lexing.lines_without rfl, Lexing.lines_without rfl] at h
  obtain ⟨otherLine, hotherLine, hfilter⟩ : ∃ otherLine, other.lines[n]? = some otherLine ∧
      otherLine.filter (fun lexeme => !lexeme.isFill) =
        line.filter fun lexeme => !lexeme.isFill := by
    have hn := congrArg (·[n]?) h
    simp only [List.getElem?_map, hline, Option.map_some, Option.map_eq_some_iff] at hn
    exact hn
  have hforce : Separators.inForce (other.lines.take n).flatten =
      Separators.inForce (lexing.lines.take n).flatten := by
    rw [← Separators.inForce_filter_isFill, ← Separators.inForce_filter_isFill (List.flatten _),
      List.filter_flatten, List.filter_flatten, List.map_take, List.map_take, h]
  obtain ⟨drawing, after, row, hrow, hdrawn, hbegin, hseparators⟩ :=
    exists_row width choices hline
  obtain ⟨drawing', after', row', hrow', hdrawn', hbegin', hseparators'⟩ :=
    exists_row otherWidth otherChoices hotherLine
  have hsegments : row.segments = row'.segments := by
    have hsame := Drawing.segments_drawLine_eq width otherWidth hbegin hbegin'
      (by rw [hseparators, hseparators', hforce]) hfilter.symm
    rwa [hdrawn, hdrawn'] at hsame
  have hlength : row.segments.length = 1 := by
    rw [(Drawing.visible_drawLine hbegin hdrawn).1, List.count_eq_zero_of_not_mem hbreak]
  rw [hrow, hrow', Row.eq_of_segments_eq hsegments hlength]

/--
Every text is kept. A row is written as its segments with the fills between them; there is a segment
more than breaks, and without escape sequences they show what the tokens draw, those before a break on
the segments before it. Where no separators are in force, all rows are seen to be the same without the
tokens that only color. And a line without breaks is written the same for every width, whatever fills
are set anywhere and whatever the choices.
-/
theorem texts_are_kept (width : Int) (choices : Choices) (markup : Text) :
    let lexing := Lexing.ofMarkup markup
    let rows := (ofMarkup width choices markup).rows
    let shown := fun segment : Segment => segment.uncolored.written .raw
    rows.length = lexing.lines.length ∧
    (∀ (n : Nat) (line : List Lexeme) (row : Row), lexing.lines[n]? = some line →
      rows[n]? = some row →
      let separators := Separators.inForce (lexing.lines.take n).flatten
      row.segments.length = line.count .segmentBreak + 1 ∧
      (∀ mode, row.written mode = (row.segments.zip (row.fills ++ [[]])).flatMap
        fun (segment, fill) => segment.written mode ++ mode.protect fill) ∧
      row.segments.flatMap shown = Lexeme.drawnText separators line ∧
      ∀ front back, line = front ++ .segmentBreak :: back →
        (row.segments.take (front.count .segmentBreak + 1)).flatMap shown =
          Lexeme.drawnText separators front) ∧
    (Separators.NoneAmong (lexing.tokens.map Token.lexeme) →
      (ofLexing width choices (lexing.without Lexeme.isColoring)).rows.map
          (fun row => row.uncolored.written .raw) =
        rows.map fun row => row.uncolored.written .raw) ∧
    ∀ (otherWidth : Int) (otherChoices : Choices) (other : Lexing),
      (other.without Lexeme.isFill).lines = (lexing.without Lexeme.isFill).lines →
      ∀ (n : Nat) (line : List Lexeme), lexing.lines[n]? = some line → .segmentBreak ∉ line →
        ∀ mode, (ofLexing otherWidth otherChoices other).rows[n]?.map (Row.written mode) =
          rows[n]?.map (Row.written mode) := by
  intro lexing rows shown
  have hshown : shown = Segment.visible := funext Segment.written_raw_uncolored
  refine ⟨?_, ?_, ?_, ?_⟩
  · exact (congrArg List.length (map_fst_finished _)).symm.trans
      ((List.length_map _).trans length_finished)
  · intro n line row hline hrow separators
    obtain ⟨drawing, after, row', hrow', hdrawn, hbegin, hseparators⟩ :=
      exists_row width choices hline
    obtain rfl : row' = row := Option.some_inj.mp (hrow'.symm.trans hrow)
    have hforce : drawing.separators = separators := hseparators
    obtain ⟨hlength, hvisible⟩ := Drawing.visible_drawLine hbegin hdrawn
    rw [hforce] at hvisible
    rw [hshown]
    refine ⟨hlength, fun mode => Row.written_eq_flatMap_zip mode _, hvisible, ?_⟩
    intro front back hbreak
    rw [← hforce]
    exact Drawing.visible_take_drawLine hbegin hdrawn hbreak
  · intro hnone
    rw [rows_without_coloring width choices hnone, List.map_map]
    exact List.map_congr_left fun row _ => congrArg (Row.written .raw) row.uncolored_uncolored
  · intro otherWidth otherChoices other hother n line hline hbreak mode
    exact congrArg (Option.map (Row.written mode))
      (getElem?_rows_eq width otherWidth choices otherChoices hother hline hbreak)

/-- The first line has a gap and colors, the second no gap; the other markup sets its fill elsewhere. -/
theorem texts_are_kept_two_lines :
    let markup : Text := "\"a\"\x7b:b!\"b\"*F(2d)r\"c\"\x7d|w\" d\"<\"e\"0"
    let other : Text := "\"a\"\x7b:b!\"b\"*r\"c\"\x7d|w\" d\"<F(2b,#)\"e\"0"
    let lexing := Lexing.ofMarkup markup
    let rows := (ofMarkup 8 (.cycle [0, 1]) markup).rows
    rows.length = 2 ∧
    (∃ row, rows[0]? = some row ∧ row.segments.length = 2 ∧
      row.segments.flatMap (fun segment => segment.uncolored.written .raw) =
        (['a', 'b', 'c'] : Text)) ∧
    (ofLexing 8 (.cycle [0, 1]) (lexing.without Lexeme.isColoring)).rows.map
        (fun row => row.uncolored.written .raw) =
      rows.map (fun row => row.uncolored.written .raw) ∧
    (ofMarkup 3 (.cycle [1]) other).rows[1]?.map (Row.written .zsh) =
      rows[1]?.map (Row.written .zsh) := by
  intro markup other lexing rows
  obtain ⟨hlength, htexts, hcolors, hwidth⟩ := texts_are_kept 8 (.cycle [0, 1]) markup
  have hlines : lexing.lines.length = 2 := by decide +kernel
  have hrows : rows.length = 2 := hlength.trans hlines
  have hline := List.getElem?_eq_getElem (show 0 < lexing.lines.length by decide +kernel)
  have hrow := List.getElem?_eq_getElem (show 0 < rows.length by omega)
  obtain ⟨hsegments, -, hshown, -⟩ := htexts 0 _ _ hline hrow
  have hnone : Separators.NoneAmong (lexing.tokens.map Token.lexeme) := by
    have hkinds : ∀ lexeme ∈ lexing.tokens.map Token.lexeme, lexeme.isSeparators = false := by
      decide +kernel
    intro separators hmem
    cases hkinds _ hmem
  have hother : ((Lexing.ofMarkup other).without Lexeme.isFill).lines =
      (lexing.without Lexeme.isFill).lines := by decide +kernel
  have hsecond := List.getElem?_eq_getElem (show 1 < lexing.lines.length by decide +kernel)
  refine ⟨hrows, ⟨_, hrow, hsegments.trans (by decide +kernel), hshown.trans (by decide +kernel)⟩,
    hcolors hnone, ?_⟩
  exact hwidth 3 (.cycle [1]) _ hother 1 _ hsecond (by decide +kernel) .zsh

end Rendering

end ShellPrompt
