import ShellPrompt.Proofs.Render.Gaps
import ShellPrompt.Proofs.Render.Segments
/-!
What the gaps of a line are filled with. The fill is looked up when the line ends, and the character
that `#` repeats when the gap begins; the two come from different tokens. Main statement: for every
gap of every line, which tokens decide its fill and which choices it takes
(`Rendering.gaps_are_filled`).
-/

set_option autoImplicit false

namespace ShellPrompt

def Choices.several (others : Nat) : Nat → Choices → List (Fin (others + 1)) × Choices
  | 0, choices => ([], choices)
  | n + 1, choices =>
    let (i, choices) := choices.choose others
    let (more, choices) := several others n choices
    (i :: more, choices)

theorem Choices.several_add (others m n : Nat) (choices : Choices) :
    (several others (m + n) choices).2 = (several others n (several others m choices).2).2 := by
  induction m generalizing choices with
  | zero => rw [Nat.zero_add, several]
  | succ m ih => rw [Nat.succ_add, several, several, ih]

namespace Fill

theorem text_eq (fill : Fill) (last : Option CodePoint) (n : Nat) (choices : Choices) :
    fill.text last n choices =
      if fill.others = [] then (List.replicate n (fill.first.resolve last), choices)
      else ((choices.several fill.others.length n).1.map fun i =>
          ((fill.first :: fill.others).get i).resolve last,
        (choices.several fill.others.length n).2) := by
  have hchosen : fill.chosen last n choices =
      ((choices.several fill.others.length n).1.map fun i =>
        ((fill.first :: fill.others).get i).resolve last,
          (choices.several fill.others.length n).2) := by
    induction n generalizing choices with
    | zero => rfl
    | succ n ih =>
      have hrest := ih (choices.choose fill.others.length).2
      simp only [chosen, Choices.several, hrest]
      rfl
  rw [text, hchosen]
  by_cases hothers : fill.others = []
  · rw [if_pos hothers, if_pos (List.isEmpty_iff.mpr hothers)]
  · rw [if_neg hothers, if_neg (mt List.isEmpty_iff.mp hothers)]

/-- The choices that remain after some cells: a fill of one glyph takes none, others one for each. -/
def choicesAfter (fill : Fill) (cells : Nat) (choices : Choices) : Choices :=
  if fill.others = [] then choices else (choices.several fill.others.length cells).2

theorem choicesAfter_zero (fill : Fill) (choices : Choices) : fill.choicesAfter 0 choices = choices := by
  rw [choicesAfter, Choices.several, ite_self]

theorem choicesAfter_add (fill : Fill) (m n : Nat) (choices : Choices) :
    fill.choicesAfter (m + n) choices = fill.choicesAfter n (fill.choicesAfter m choices) := by
  simp only [choicesAfter]
  split
  · rfl
  · exact Choices.several_add fill.others.length m n choices

theorem snd_text (fill : Fill) (last : Option CodePoint) (n : Nat) (choices : Choices) :
    (fill.text last n choices).2 = fill.choicesAfter n choices := by
  rw [text_eq, choicesAfter]
  split <;> rfl

end Fill

namespace Row

theorem fillGaps_cons (fill : Fill) (before : Segment) (gap : Nat × Segment)
    (gaps : List (Nat × Segment)) (choices : Choices) :
    fillGaps fill before (gap :: gaps) choices =
      (((fill.text before.lastLiteral gap.1 choices).1, gap.2) ::
          (fillGaps fill gap.2 gaps (fill.choicesAfter gap.1 choices)).1,
        (fillGaps fill gap.2 gaps (fill.choicesAfter gap.1 choices)).2) := by
  rw [← fill.snd_text before.lastLiteral]
  rfl

theorem snd_fillGaps (fill : Fill) (before : Segment) (gaps : List (Nat × Segment))
    (choices : Choices) :
    (fillGaps fill before gaps choices).2 =
      fill.choicesAfter (total (gaps.map Prod.fst)) choices := by
  induction gaps generalizing before choices with
  | nil => exact (fill.choicesAfter_zero choices).symm
  | cons gap gaps ih =>
    rw [fillGaps_cons, ih, List.map_cons, total_cons, fill.choicesAfter_add]

theorem getElem?_fillGaps {fill : Fill} {before : Segment} {gaps : List (Nat × Segment)}
    {choices : Choices} {g : Nat} {text : Text} {segment : Segment}
    (htext : ((fillGaps fill before gaps choices).1.map Prod.fst)[g]? = some text)
    (hsegment : (before :: gaps.map Prod.snd)[g]? = some segment) :
    text = (fill.text segment.lastLiteral text.length
      (fill.choicesAfter (total ((((fillGaps fill before gaps choices).1.map Prod.fst).take g).map
        List.length)) choices)).1 := by
  induction gaps generalizing before choices g with
  | nil => cases htext
  | cons gap gaps ih =>
    rw [fillGaps_cons] at htext ⊢
    cases g with
    | zero =>
      obtain rfl : before = segment := Option.some_inj.mp hsegment
      have hfirst : (fill.text before.lastLiteral gap.1 choices).1 = text := Option.some_inj.mp htext
      have hlength : text.length = gap.1 := by rw [← hfirst, Fill.length_text]
      rw [List.take_zero, List.map_nil, total_nil, fill.choicesAfter_zero, hlength, hfirst]
    | succ g =>
      have hrest := ih htext hsegment
      rw [← fill.choicesAfter_add] at hrest
      simpa using hrest

section Justified

variable (width : Int) (fill : Fill) (line : Line) (choices : Choices)

theorem snd_justify :
    (justify width fill line choices).2 = fill.choicesAfter
      (total ((justify width fill line choices).1.fills.map List.length)) choices := by
  rw [justify, snd_fillGaps, fills, List.map_map]
  exact congrArg (fun counts => fill.choicesAfter (total counts) choices)
    (map_length_fillGaps fill _ _ choices).symm

theorem getElem?_fills_justify {g : Nat} {text : Text} {segment : Segment}
    (htext : (justify width fill line choices).1.fills[g]? = some text)
    (hsegment : (justify width fill line choices).1.segments[g]? = some segment) :
    text = (fill.text segment.lastLiteral text.length
      (fill.choicesAfter (total (((justify width fill line choices).1.fills.take g).map
        List.length)) choices)).1 := by
  rw [segments, justify, map_snd_fillGaps] at hsegment
  exact getElem?_fillGaps htext hsegment

end Justified

end Row

namespace Drawing

theorem choices_apply (drawing : Drawing) (lexeme : Lexeme) :
    (drawing.apply lexeme).choices = drawing.choices := by
  cases lexeme with
  | transition t spec =>
    exact transition_preserves (P := fun next => next.choices = drawing.choices)
      (fun _ _ _ hnext => hnext) (fun _ _ hnext => hnext) (fun _ hnext => hnext) spec rfl
  | separators | fill | segmentBreak | whitespace | literal | lineBreak | reset | spec => rfl

theorem choices_foldl_apply (drawing : Drawing) (lexemes : List Lexeme) :
    (lexemes.foldl apply drawing).choices = drawing.choices := by
  induction lexemes generalizing drawing with
  | nil => rfl
  | cons lexeme lexemes ih => rw [List.foldl_cons, ih, choices_apply]

variable {width : Int} {drawing after : Drawing} {lexemes : List Lexeme} {row : Row}

theorem exists_justify_of_drawLine (hbegin : drawing.startLine = drawing)
    (hdrawn : drawing.drawLine width lexemes = (row, after)) :
    ∃ line : Line, line.finished = (lexemes.foldl apply drawing).line.finished ∧
      line.finished.length = lexemes.count .segmentBreak ∧
      row = (Row.justify width after.fill line drawing.choices).1 ∧
      after.choices = (Row.justify width after.fill line drawing.choices).2 := by
  obtain ⟨line, hfinished, -, hrow, hchoices⟩ :=
    (lexemes.foldl apply drawing).exists_justify_of_finishLine width
  have hfill := ((lexemes.foldl apply drawing).finishLine_eq width).2.1
  rw [drawLine] at hdrawn
  rw [hdrawn] at hrow hchoices hfill
  rw [choices_foldl_apply, ← hfill] at hrow hchoices
  refine ⟨line, hfinished, ?_, hrow, hchoices⟩
  rw [hfinished, length_finished_of_startLine hbegin]

/-- A gap is filled after the last literal before its segment break. -/
theorem getElem?_fills_drawLine (hbegin : drawing.startLine = drawing)
    (hdrawn : drawing.drawLine width lexemes = (row, after)) {front back : List Lexeme}
    (hbreak : lexemes = front ++ .segmentBreak :: back) :
    ∃ text, row.fills[front.count .segmentBreak]? = some text ∧
      text = (after.fill.text (front.filterMap Lexeme.lastCharacter?).getLast? text.length
        (after.fill.choicesAfter
          (total ((row.fills.take (front.count .segmentBreak)).map List.length))
          drawing.choices)).1 := by
  obtain ⟨line, hfinished, hcount, rfl, -⟩ := exists_justify_of_drawLine hbegin hdrawn
  obtain ⟨more, hmore⟩ := drawing.finished_eq_append_of_segmentBreak front back
  rw [← hbreak] at hmore
  -- The segment before the gap is the one that was current when the segment break came.
  have hfront := length_finished_of_startLine hbegin front
  have hsegment : line.segments[front.count .segmentBreak]? =
      some (front.foldl apply drawing).line.current := by
    rw [Line.segments, hfinished, hmore, Line.segments, ← hfront]
    simp
  have hlast := lastLiteral_of_startLine hbegin front
  have hgap : front.count .segmentBreak <
      (Row.justify width after.fill line drawing.choices).1.fills.length := by
    rw [Row.length_fills_justify, hcount, hbreak, List.count_append, List.count_cons_self]
    omega
  refine ⟨_, List.getElem?_eq_getElem hgap, ?_⟩
  rw [← Row.segments_justify width after.fill line drawing.choices] at hsegment
  rw [← hlast]
  exact Row.getElem?_fills_justify _ _ _ _ (List.getElem?_eq_getElem hgap) hsegment

end Drawing

namespace Rendering

/--
The lines that are finished are those of the markup. Each has a gap for each of its segment breaks,
and its fill is the last one set before its end. What the gap of a segment break holds depends on the
last literal with a character before that break on the line, and on the choices: a fill of one glyph
is repeated and takes no choice, and of several glyphs one is chosen for each cell, gap by gap, where
the choices of the line before ended.
-/
theorem gaps_are_filled (width : Int) (choices : Choices) (markup : Text) :
    let lines := (Lexing.ofMarkup markup).lines
    let finished := (ofMarkup width choices markup).finished
    finished.length = lines.length ∧
    ∀ (n : Nat) (line : List Lexeme) (row : Row) (after : Drawing),
      lines[n]? = some line → finished[n]? = some (row, after) →
      let fill := Fill.inForce (lines.take (n + 1)).flatten
      let before := (finished.take n).getLast?.elim choices fun earlier => earlier.2.choices
      let left := fun gaps => fill.choicesAfter (total ((row.fills.take gaps).map List.length)) before
      row.fills.length = line.count .segmentBreak ∧ after.choices = left row.fills.length ∧
      ∀ front back, line = front ++ .segmentBreak :: back →
        let gap := front.count .segmentBreak
        let last := (front.filterMap Lexeme.lastCharacter?).getLast?
        ∃ text, row.fills[gap]? = some text ∧
          text = if fill.others = [] then List.replicate text.length (fill.first.resolve last)
            else ((left gap).several fill.others.length text.length).1.map fun i =>
              ((fill.first :: fill.others).get i).resolve last := by
  intro lines finished
  refine ⟨length_finished, ?_⟩
  intro n line row after hline hfinished fill before left
  obtain ⟨drawing, hdrawn, hbegin, -, hbefore, hfill⟩ := exists_drawLine hline hfinished
  have hchoices : drawing.choices = before := hbefore
  obtain ⟨drawn, -, hcount, hrow, hafter⟩ := Drawing.exists_justify_of_drawLine hbegin hdrawn
  refine ⟨?_, ?_, ?_⟩
  · rw [hrow, Row.length_fills_justify, hcount]
  · rw [hafter, Row.snd_justify, ← hrow, hchoices]
    simp only [left, List.take_length]
    rw [← show after.fill = fill from hfill]
  · intro front back hbreak gap last
    obtain ⟨text, htext, hglyphs⟩ := Drawing.getElem?_fills_drawLine hbegin hdrawn hbreak
    refine ⟨text, htext, ?_⟩
    rw [show after.fill = fill from hfill, hchoices, Fill.text_eq] at hglyphs
    split at hglyphs
    next hone => rwa [if_pos hone]
    next hmany => rwa [if_neg hmany]

/-- The second gap of the second line, whose fill is set after it. -/
theorem gaps_are_filled_second_line :
    let markup : Text := "F(2d,2b)\"ab\"*\"c\"|*\"d\" \"\"\x7b*\"e\"F(#)"
    ∃ row after, (ofMarkup 12 (.cycle [0, 1, 1]) markup).finished[1]? = some (row, after) ∧
      row.fills.length = 2 ∧ ∃ text, row.fills[1]? = some text ∧
        text = List.replicate text.length (CodePoint.ofChar 'd') := by
  intro markup
  obtain ⟨-, hgaps⟩ := gaps_are_filled 12 (.cycle [0, 1, 1]) markup
  have hline : (Lexing.ofMarkup markup).lines[1]? = some ([.segmentBreak, .literal ['d'],
      .whitespace [' '], .literal [], .transition .push none] ++ .segmentBreak ::
        [.literal ['e'], .fill ⟨.repeatLast, []⟩]) := by decide +kernel
  have hfinished := List.getElem?_eq_getElem
    (show 1 < (ofMarkup 12 (.cycle [0, 1, 1]) markup).finished.length by decide +kernel)
  obtain ⟨hcount, -, hfilled⟩ := hgaps 1 _ _ _ hline hfinished
  obtain ⟨text, htext, hglyphs⟩ := hfilled _ _ rfl
  have hfill : Fill.inForce (((Lexing.ofMarkup markup).lines.take 2).flatten) =
      ⟨.repeatLast, []⟩ := by decide +kernel
  rw [hfill, if_pos rfl] at hglyphs
  exact ⟨_, _, hfinished, hcount, text, htext, hglyphs⟩

end Rendering

end ShellPrompt
