import ShellPrompt.Proofs.Render.Lines
import ShellPrompt.Proofs.Render.Shown
/-!
What the tokens of a line do to its segments. A segment break finishes the current segment, and no
other token starts or touches another one; so what a part of a line draws can be found again in the
whole line. Main statements: the text that tokens draw (`Drawing.visible_foldl_apply`), the number of
segments (`Drawing.length_finished_foldl_apply`), and which of them the tokens before a break make
(`Drawing.finished_eq_append_of_segmentBreak`).
-/

set_option autoImplicit false

namespace ShellPrompt

namespace Lexeme

def lastCharacter? : Lexeme → Option CodePoint
  | literal t => t.getLast?
  | _ => none

/-- The text that a token draws: its own, or the separator of a transition. -/
def drawn (separators : Separators) : Lexeme → Text
  | whitespace t => t
  | literal t => t
  | transition t _ => (separators.glyph? t).getD []
  | _ => []

/-- The text that tokens draw, each with the separators that are in force where it stands. -/
def drawnText (separators : Separators) : List Lexeme → Text
  | [] => []
  | lexeme :: rest =>
    lexeme.drawn separators ++ drawnText (lexeme.separators?.getD separators) rest

end Lexeme

namespace Drawing

variable (drawing : Drawing)

theorem finished_changeStyle (target : Style) :
    (drawing.changeStyle target).line.finished = drawing.line.finished := by
  rw [changeStyle]
  split <;> rfl

theorem finished_apply {lexeme : Lexeme} (h : lexeme ≠ .segmentBreak) :
    (drawing.apply lexeme).line.finished = drawing.line.finished := by
  cases lexeme with
  | segmentBreak => exact absurd rfl h
  | transition t spec =>
    exact transition_preserves (P := fun next => next.line.finished = drawing.line.finished)
      (fun _ _ _ hnext => hnext) (fun _ _ hnext => (finished_changeStyle _ _).trans hnext)
      (fun _ hnext => hnext) spec rfl
  | spec spec => exact drawing.finished_changeStyle _
  | separators | fill | whitespace | literal | lineBreak | reset => rfl

theorem lastLiteral_changeStyle (target : Style) :
    (drawing.changeStyle target).line.current.lastLiteral = drawing.line.current.lastLiteral := by
  rw [changeStyle]
  split
  · rfl
  · exact Segment.lastLiteral_draw _ _

theorem lastLiteral_reset :
    drawing.reset.line.current.lastLiteral = drawing.line.current.lastLiteral :=
  Segment.lastLiteral_draw _ _

theorem lastLiteral_apply (lexeme : Lexeme) :
    (drawing.apply lexeme).line.current.lastLiteral =
      lexeme.lastCharacter?.or drawing.line.current.lastLiteral := by
  cases lexeme with
  | literal t => exact Segment.lastLiteral_draw _ _
  | whitespace t => exact Segment.lastLiteral_draw _ _
  | transition t spec =>
    exact transition_preserves
      (P := fun next => next.line.current.lastLiteral = drawing.line.current.lastLiteral)
      (fun _ _ _ hnext => (Segment.lastLiteral_draw _ _).trans hnext)
      (fun _ _ hnext => (lastLiteral_changeStyle _ _).trans hnext)
      (fun _ hnext => (lastLiteral_reset _).trans hnext) spec rfl
  | spec spec => exact drawing.lastLiteral_changeStyle _
  | reset => exact drawing.lastLiteral_reset
  | separators | fill | segmentBreak | lineBreak => rfl

theorem visible_separate (t : Transition) (spec : Option Spec) (target : Style) :
    (drawing.separate t spec target).1.line.visible =
      drawing.line.visible ++ (drawing.separators.glyph? t).getD [] := by
  rw [separate]
  cases drawing.separators.glyph? t with
  | none => exact (List.append_nil _).symm
  | some glyph =>
    by_cases hbackground : target.background = drawing.style.background
    · simp only [if_pos hbackground]
      exact Line.visible_draw _ _
    · simp only [if_neg hbackground]
      refine (Line.visible_draw _ _).trans ?_
      rw [visible_changeStyle]
      rfl

theorem visible_transition (t : Transition) (spec : Option Spec) :
    (drawing.transition t spec).line.visible =
      drawing.line.visible ++ (drawing.separators.glyph? t).getD [] := by
  simp only [transition, visible_changeStyle]
  by_cases hpop : t = .pop
  · rw [if_pos hpop, visible_reset, visible_separate]
  · rw [if_neg hpop, visible_separate]

theorem visible_apply (lexeme : Lexeme) :
    (drawing.apply lexeme).line.visible =
      drawing.line.visible ++ lexeme.drawn drawing.separators := by
  cases lexeme with
  | transition t spec => exact drawing.visible_transition t spec
  | whitespace | literal => exact Line.visible_draw _ _
  | spec spec => exact (drawing.visible_changeStyle _).trans (List.append_nil _).symm
  | reset => exact drawing.visible_reset.trans (List.append_nil _).symm
  | segmentBreak => exact (Line.visible_startSegment _).trans (List.append_nil _).symm
  | separators | fill | lineBreak => exact (List.append_nil _).symm

theorem visible_foldl_apply (lexemes : List Lexeme) :
    (lexemes.foldl apply drawing).line.visible =
      drawing.line.visible ++ Lexeme.drawnText drawing.separators lexemes := by
  induction lexemes generalizing drawing with
  | nil => exact (List.append_nil _).symm
  | cons lexeme lexemes ih =>
    rw [List.foldl_cons, ih, visible_apply, separators_apply_eq_getD, Lexeme.drawnText,
      List.append_assoc]

theorem lastLiteral_foldl_apply (lexemes : List Lexeme) :
    (lexemes.foldl apply drawing).line.current.lastLiteral =
      (lexemes.filterMap Lexeme.lastCharacter?).getLast?.or drawing.line.current.lastLiteral :=
  foldl_apply_last drawing (·.line.current.lastLiteral) lastLiteral_apply lexemes

theorem length_finished_foldl_apply (lexemes : List Lexeme) :
    (lexemes.foldl apply drawing).line.finished.length =
      drawing.line.finished.length + lexemes.count .segmentBreak := by
  induction lexemes generalizing drawing with
  | nil => rfl
  | cons lexeme lexemes ih =>
    rw [List.foldl_cons, ih, List.count_cons]
    by_cases hbreak : lexeme = .segmentBreak
    · subst hbreak
      simp [apply, Line.startSegment, Line.segments]
      omega
    · simp [drawing.finished_apply hbreak, hbreak]

theorem finished_isPrefix_foldl_apply (lexemes : List Lexeme) :
    drawing.line.finished <+: (lexemes.foldl apply drawing).line.finished := by
  induction lexemes generalizing drawing with
  | nil => exact List.prefix_rfl
  | cons lexeme lexemes ih =>
    refine List.IsPrefix.trans ?_ (ih (drawing.apply lexeme))
    by_cases hbreak : lexeme = .segmentBreak
    · subst hbreak
      exact List.prefix_append _ _
    · exact ⟨[], by rw [List.append_nil, drawing.finished_apply hbreak]⟩

/-- A segment break finishes the segments of the tokens before it, and those after it add others. -/
theorem finished_eq_append_of_segmentBreak (front back : List Lexeme) :
    ∃ more, ((front ++ .segmentBreak :: back).foldl apply drawing).line.finished =
      (front.foldl apply drawing).line.segments ++ more := by
  have hprefix := finished_isPrefix_foldl_apply
    ((front.foldl apply drawing).apply .segmentBreak) back
  obtain ⟨more, hmore⟩ := hprefix
  refine ⟨more, ?_⟩
  rw [List.foldl_append, List.foldl_cons, ← hmore]
  rfl

section Beginning

variable {drawing} (hbegin : drawing.startLine = drawing)
include hbegin

theorem length_finished_of_startLine (lexemes : List Lexeme) :
    (lexemes.foldl apply drawing).line.finished.length = lexemes.count .segmentBreak := by
  rw [length_finished_foldl_apply, ← hbegin]
  exact Nat.zero_add _

theorem visible_of_startLine (lexemes : List Lexeme) :
    (lexemes.foldl apply drawing).line.visible =
      Lexeme.drawnText drawing.separators lexemes := by
  have hempty : drawing.line.visible = [] := by
    rw [← hbegin]
    rfl
  rw [visible_foldl_apply, hempty, List.nil_append]

theorem lastLiteral_of_startLine (lexemes : List Lexeme) :
    (lexemes.foldl apply drawing).line.current.lastLiteral =
      (lexemes.filterMap Lexeme.lastCharacter?).getLast? := by
  rw [lastLiteral_foldl_apply, ← hbegin]
  exact Option.or_none

end Beginning

theorem exists_justify_of_finishLine (width : Int) :
    ∃ line : Line, line.finished = drawing.line.finished ∧ line.visible = drawing.line.visible ∧
      (drawing.finishLine width).1 =
        (Row.justify width drawing.fill line drawing.choices).1 ∧
      (drawing.finishLine width).2.choices =
        (Row.justify width drawing.fill line drawing.choices).2 := by
  rw [finishLine]
  by_cases hplain : drawing.style = .plain
  · rw [if_pos hplain]
    exact ⟨drawing.line, rfl, rfl, rfl, rfl⟩
  · rw [if_neg hplain]
    exact ⟨drawing.reset.line, rfl, drawing.visible_reset, rfl, rfl⟩

end Drawing

end ShellPrompt
