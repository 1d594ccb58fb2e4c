import ShellPrompt.Proofs.Render.Context
import ShellPrompt.Proofs.Render.Justified
import ShellPrompt.Proofs.Render.Pieces
/-!
What is seen of markup: the texts of its tokens, line ends for its line breaks, and glyphs in
between. Main statement: of characters that no glyph has, exactly those of the tokens are seen, in
the same order (`Rendering.filter_visible_ofMarkup`).
-/

set_option autoImplicit false

namespace ShellPrompt

def Separators.Avoid (kind : CodePoint → Bool) (separators : Separators) : Prop :=
  ∀ glyph ∈ separators.glyphs.toList, ∀ c ∈ glyph, kind c = false

/-- No glyph of the fill is a character of this kind, whatever literal comes before the gap. -/
def Fill.Avoid (kind : CodePoint → Bool) (fill : Fill) : Prop :=
  ∀ glyph ∈ fill.toList, ∀ last, kind (glyph.resolve last) = false

theorem Separators.mem_toList_of_glyph? {separators : Separators} {t : Transition} {glyph : Text}
    (h : separators.glyph? t = some glyph) : glyph ∈ separators.glyphs.toList := by
  rw [glyph?, Option.map_eq_some_iff] at h
  obtain ⟨pair, hpair, rfl⟩ := h
  have hmem : pair.opening ∈ separators.glyphs.toList ∧
      pair.closing ∈ separators.glyphs.toList := by
    cases hglyphs : separators.glyphs with
    | none => rw [hglyphs] at hpair; cases hpair
    | one p =>
      rw [hglyphs] at hpair
      cases hpair
      simp [GlyphSet.toList]
    | two p q =>
      rw [hglyphs] at hpair
      cases t <;> cases hpair <;> simp [GlyphSet.toList]
  split
  · exact hmem.2
  · exact hmem.1

namespace Lexeme

def text : Lexeme → Text
  | whitespace t => t
  | literal t => t
  | lineBreak => ['\n']
  | _ => []

def Avoid (kind : CodePoint → Bool) : Lexeme → Prop
  | .separators set => set.Avoid kind
  | .fill glyphs => glyphs.Avoid kind
  | _ => True

end Lexeme

def Segment.visible (segment : Segment) : Text :=
  segment.pieces.flatMap Piece.visible

def Line.visible (line : Line) : Text :=
  line.segments.flatMap Segment.visible

def Row.visible (row : Row) : Text :=
  row.pieces.flatMap Piece.visible

variable {kind : CodePoint → Bool}

namespace Line

@[simp] theorem visible_draw (line : Line) (piece : Piece) :
    (line.draw piece).visible = line.visible ++ piece.visible := by
  simp [visible, segments, draw, Segment.draw, Segment.visible]

@[simp] theorem visible_startSegment (line : Line) : line.startSegment.visible = line.visible := by
  simp [visible, segments, startSegment, Segment.visible, Segment.empty]

end Line

theorem filter_eq_nil_of_avoid {t : Text} (h : ∀ c ∈ t, kind c = false) : t.filter kind = [] := by
  rw [List.filter_eq_nil_iff]
  intro c hc
  rw [h c hc]
  exact Bool.false_ne_true

namespace Row

theorem filter_visible {row : Row} (h : ∀ text ∈ row.fills, ∀ c ∈ text, kind c = false) :
    row.visible.filter kind = (row.segments.flatMap Segment.visible).filter kind := by
  have hrest : ∀ rest : List (Text × Segment),
      (∀ text ∈ rest.map Prod.fst, ∀ c ∈ text, kind c = false) →
        ((rest.flatMap fun gap => .text gap.1 false :: gap.2.pieces).flatMap
          Piece.visible).filter kind =
            ((rest.map Prod.snd).flatMap Segment.visible).filter kind := by
    intro rest hfills
    induction rest with
    | nil => rfl
    | cons gap rest ih =>
      rw [List.map_cons, List.forall_mem_cons] at hfills
      have hgap : (Piece.text gap.1 false).visible.filter kind = [] :=
        filter_eq_nil_of_avoid hfills.1
      simp only [List.flatMap_cons, List.flatMap_append, List.filter_append, List.map_cons,
        ih hfills.2, hgap, List.nil_append]
      rfl
  have hpieces : row.pieces =
      row.first.pieces ++ row.rest.flatMap fun gap => .text gap.1 false :: gap.2.pieces := rfl
  rw [visible, hpieces, List.flatMap_append, List.filter_append, hrest row.rest h, segments,
    List.flatMap_cons, List.filter_append]
  rfl

theorem filter_visible_justify {fill : Fill} (h : fill.Avoid kind) (width : Int) (line : Line)
    (choices : Choices) :
    (justify width fill line choices).1.visible.filter kind = line.visible.filter kind := by
  have hfills : ∀ text ∈ (justify width fill line choices).1.fills, ∀ c ∈ text,
      kind c = false := by
    intro text htext c hc
    obtain ⟨segment, -, glyph, hglyph, rfl⟩ := mem_fills_justify htext hc
    exact h glyph hglyph segment.lastLiteral
  rw [filter_visible hfills, segments_justify, Line.visible]

end Row

namespace Drawing

structure Avoids (kind : CodePoint → Bool) (drawing : Drawing) : Prop where
  separators : drawing.separators.Avoid kind
  fill : drawing.fill.Avoid kind

theorem visible_changeStyle (drawing : Drawing) (target : Style) :
    (drawing.changeStyle target).line.visible = drawing.line.visible := by
  rw [changeStyle]
  split
  · rfl
  · exact (Line.visible_draw _ _).trans (List.append_nil _)

theorem visible_reset (drawing : Drawing) : drawing.reset.line.visible = drawing.line.visible :=
  (Line.visible_draw _ _).trans (List.append_nil _)

theorem filter_visible_text {t : Text} (h : ∀ c ∈ t, kind c = false) (drawing : Drawing)
    (literal : Bool) :
    (drawing.text t literal).line.visible.filter kind = drawing.line.visible.filter kind := by
  rw [text, Line.visible_draw, List.filter_append, Piece.visible, filter_eq_nil_of_avoid h,
    List.append_nil]

variable {drawing : Drawing}

theorem filter_visible_transition (h : drawing.separators.Avoid kind) (t : Transition)
    (spec : Option Spec) :
    (drawing.transition t spec).line.visible.filter kind = drawing.line.visible.filter kind :=
  transition_preserves
    (P := fun next => next.line.visible.filter kind = drawing.line.visible.filter kind)
    (fun _ glyph hglyph hnext =>
      (filter_visible_text (h glyph (Separators.mem_toList_of_glyph? hglyph)) _ false).trans hnext)
    (fun _ style hnext => by rw [visible_changeStyle, hnext])
    (fun _ hnext => by rw [visible_reset, hnext]) spec rfl

theorem filter_visible_apply (h : drawing.separators.Avoid kind) {lexeme : Lexeme}
    (hline : lexeme ≠ .lineBreak) :
    (drawing.apply lexeme).line.visible.filter kind =
      (drawing.line.visible ++ lexeme.text).filter kind := by
  have hsilent : lexeme.text = [] →
      (drawing.apply lexeme).line.visible.filter kind = drawing.line.visible.filter kind →
        (drawing.apply lexeme).line.visible.filter kind =
          (drawing.line.visible ++ lexeme.text).filter kind := by
    intro htext hvisible
    rw [htext, List.append_nil, hvisible]
  cases lexeme with
  | lineBreak => exact absurd rfl hline
  | whitespace t => exact congrArg (List.filter kind) (Line.visible_draw _ _)
  | literal t => exact congrArg (List.filter kind) (Line.visible_draw _ _)
  | segmentBreak => exact hsilent rfl (congrArg (List.filter kind) (Line.visible_startSegment _))
  | reset => exact hsilent rfl (congrArg (List.filter kind) (visible_reset drawing))
  | transition t spec => exact hsilent rfl (filter_visible_transition h t spec)
  | spec spec => exact hsilent rfl (congrArg (List.filter kind) (visible_changeStyle drawing _))
  | separators | fill => exact hsilent rfl rfl

theorem avoids_apply (h : drawing.Avoids kind) {lexeme : Lexeme} (hlexeme : lexeme.Avoid kind) :
    (drawing.apply lexeme).Avoids kind := by
  cases lexeme with
  | separators separators => exact ⟨hlexeme, h.fill⟩
  | fill fill => exact ⟨h.separators, hlexeme⟩
  | _ => exact ⟨by rw [separators_apply _ rfl]; exact h.separators,
      by rw [fill_apply _ rfl]; exact h.fill⟩

theorem avoids_finishLine (h : drawing.Avoids kind) (width : Int) :
    (drawing.finishLine width).2.Avoids kind := by
  obtain ⟨hseparators, hfill, -⟩ := drawing.finishLine_eq width
  exact ⟨by rw [hseparators]; exact h.separators, by rw [hfill]; exact h.fill⟩

theorem filter_visible_finishLine (h : drawing.fill.Avoid kind) (width : Int) :
    (drawing.finishLine width).1.visible.filter kind = drawing.line.visible.filter kind := by
  rw [finishLine]
  by_cases hplain : drawing.style = .plain
  · rw [if_pos hplain]
    exact Row.filter_visible_justify h width drawing.line drawing.choices
  · rw [if_neg hplain, ← visible_reset drawing]
    exact Row.filter_visible_justify h width drawing.reset.line drawing.choices

end Drawing

namespace Rendering

def ended (rows : List Row) : Text :=
  rows.flatMap fun row => row.visible ++ ([CodePoint.ofChar '\n'] : Text)

theorem flatMap_visible_joined_concat (rows : List Row) (last : Row) :
    (Row.joined (rows ++ [last])).flatMap Piece.visible = ended rows ++ last.visible := by
  induction rows with
  | nil => rfl
  | cons row rows ih =>
    have hne : rows ++ [last] ≠ [] := by simp
    have hended : ended (row :: rows) =
        row.visible ++ ([CodePoint.ofChar '\n'] : Text) ++ ended rows := rfl
    rw [List.cons_append, Row.joined_cons hne, List.flatMap_append, List.flatMap_cons, ih, hended,
      List.append_assoc, List.append_assoc]
    rfl

theorem ended_append (rows more : List Row) : ended (rows ++ more) = ended rows ++ ended more :=
  List.flatMap_append

theorem avoids_step {drawing : Drawing} (h : drawing.Avoids kind) {token : Token}
    (htoken : token.lexeme.Avoid kind) (width : Int) :
    (step width drawing token).2.Avoids kind := by
  by_cases hline : token.lexeme = .lineBreak
  · rw [step_of_lineBreak hline]
    obtain ⟨hseparators, hfill⟩ := Drawing.avoids_finishLine h width
    exact ⟨hseparators, hfill⟩
  · rw [step_of_ne_lineBreak hline]
    exact Drawing.avoids_apply h htoken

/-- What one token adds to the rows that are finished and to the line that is not. -/
theorem filter_visible_step {drawing : Drawing} (h : drawing.Avoids kind) (width : Int)
    (token : Token) :
    (ended ((step width drawing token).1.filterMap Event.row?) ++
        (step width drawing token).2.line.visible).filter kind =
      (drawing.line.visible ++ token.lexeme.text).filter kind := by
  by_cases hline : token.lexeme = .lineBreak
  · have hrow := Drawing.filter_visible_finishLine h.fill width
    have hended : ended [(drawing.finishLine width).1] =
        (drawing.finishLine width).1.visible ++ ([CodePoint.ofChar '\n'] : Text) :=
      List.append_nil _
    rw [step_of_lineBreak hline, hline]
    change (ended [(drawing.finishLine width).1] ++ []).filter kind = _
    rw [List.append_nil, hended, List.filter_append, hrow, ← List.filter_append]
    rfl
  · rw [step_of_ne_lineBreak hline]
    exact Drawing.filter_visible_apply h.separators hline

theorem filter_visible_steps {drawing : Drawing} (h : drawing.Avoids kind) (width : Int)
    {tokens : List Token} (htokens : ∀ token ∈ tokens, token.lexeme.Avoid kind) :
    (steps width drawing tokens).2.Avoids kind ∧
      (ended ((steps width drawing tokens).1.filterMap Event.row?) ++
          (steps width drawing tokens).2.line.visible).filter kind =
        (drawing.line.visible ++ tokens.flatMap fun token => token.lexeme.text).filter kind := by
  induction tokens generalizing drawing with
  | nil => exact ⟨h, by simp [ended]⟩
  | cons token tokens ih =>
    rw [List.forall_mem_cons] at htokens
    obtain ⟨hfinal, hrest⟩ := ih (avoids_step h htokens.1 width) htokens.2
    have hstep := filter_visible_step h width token
    simp only [List.filter_append] at hstep hrest
    refine ⟨hfinal, ?_⟩
    simp only [steps_cons, List.filterMap_append, ended_append, List.flatMap_cons,
      List.filter_append, List.append_assoc, hrest]
    rw [← List.append_assoc, hstep, List.append_assoc]

/--
Of characters that no glyph has, what is seen of markup without fault is what its tokens say, with
a line end for each line break.
-/
theorem filter_visible_ofMarkup (width : Int) (choices : Choices) {markup : Text}
    (hblank : kind ' ' = false) (herror : (Lexing.ofMarkup markup).error = none)
    (htokens : ∀ token ∈ (Lexing.ofMarkup markup).tokens, token.lexeme.Avoid kind) :
    ((ofMarkup width choices markup).pieces.flatMap Piece.visible).filter kind =
      ((Lexing.ofMarkup markup).tokens.flatMap fun token => token.lexeme.text).filter kind := by
  have hstart : (Drawing.start choices).Avoids kind := by
    refine ⟨?_, ?_⟩
    · intro glyph hglyph
      cases hglyph
    · intro glyph hglyph last
      rw [List.mem_singleton.mp hglyph]
      exact hblank
  obtain ⟨hfinal, hsteps⟩ := filter_visible_steps hstart width htokens
  have hlast := Drawing.filter_visible_finishLine hfinal.fill width
  let run := steps width (.start choices) (Lexing.ofMarkup markup).tokens
  have hrows : (ofMarkup width choices markup).rows =
      run.1.filterMap Event.row? ++ [(run.2.finishLine width).1] := by
    rw [ofMarkup, ofLexing_of_error_eq_none herror]
    exact List.filterMap_append
  rw [pieces, hrows, flatMap_visible_joined_concat, List.filter_append, hlast,
    ← List.filter_append, hsteps]
  rfl

end Rendering

end ShellPrompt
