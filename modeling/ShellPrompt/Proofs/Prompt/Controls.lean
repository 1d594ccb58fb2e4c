import ShellPrompt.Proofs.Prompt.Lexemes
import ShellPrompt.Proofs.Render.Controls
import ShellPrompt.Proofs.Render.Shown
/-!
Control characters of a prompt. A quote writes them as escapes and a literal reads them back, so
the terminal is sent each control character of the texts that a prompt is made of. Main statement:
the prompt stays on its two lines and the escape sequences in it are the renderer's own exactly if
those texts have no control character (`Prompt.isContained_compose_iff`).
-/

set_option autoImplicit false

namespace ShellPrompt

theorem Literal.filter_kept (t : Text) :
    (kept t).filter CodePoint.isControlCode = t.filter CodePoint.isControlCode := by
  induction t with
  | nil => rfl
  | cons c t ih =>
    have hkept : kept (c :: t) = keptOne CodePoint.isPrintable c :: kept t := rfl
    rw [hkept, List.filter_cons, List.filter_cons, ih, keptOne]
    split
    · rfl
    · have hlost : ¬ c.val ≤ 0xFFFF := fun hval => ‹¬ _› (Or.inr hval)
      have hcontrol : c.isControlCode = false := by
        simp only [CodePoint.isControlCode, CodePoint.isControl, Bool.or_eq_false_iff,
          Bool.and_eq_false_iff, decide_eq_false_iff_not]
        omega
      have hreplacement : (CodePoint.ofNat 0xFFFD).isControlCode = false := by decide
      rw [hcontrol, hreplacement]
      rfl

namespace Prompt

def Info.texts (info : Info) : Text :=
  info.user ++ info.host ++ info.directory ++ info.branch.getD [] ++ info.time

def controls (lexemes : List Lexeme) : Text :=
  (lexemes.flatMap Lexeme.text).filter CodePoint.isControlCode

theorem controls_append (lexemes more : List Lexeme) :
    controls (lexemes ++ more) = controls lexemes ++ controls more := by
  rw [controls, List.flatMap_append, List.filter_append, controls, controls]

theorem controls_literal_cons (t : Text) (lexemes : List Lexeme) :
    controls (.literal (Literal.kept t) :: lexemes) =
      t.filter CodePoint.isControlCode ++ controls lexemes := by
  rw [controls, List.flatMap_cons, List.filter_append, Lexeme.text, Literal.filter_kept, controls]

theorem controls_bubbleLexemes (text : Text) (color : Color) :
    controls (bubbleLexemes text color) = text.filter CodePoint.isControlCode :=
  (controls_literal_cons text _).trans (List.append_nil _)

theorem controls_branchLexemes (info : Info) :
    controls (branchLexemes info) = (info.branch.getD []).filter CodePoint.isControlCode := by
  rw [branchLexemes]
  split
  · rename_i c branch hbranch
    rw [hbranch, controls_append, controls_bubbleLexemes]
    exact List.append_nil _
  · rename_i hbranch
    cases h : info.branch with
    | none => rfl
    | some branch =>
      cases branch with
      | nil => rfl
      | cons c branch => exact absurd h (hbranch c branch)

theorem controls_firstLine (info : Info) :
    controls (firstLine info) = info.texts.filter CodePoint.isControlCode := by
  have hat : (CodePoint.ofChar '@').isControlCode = false := by decide
  have hdirectory : controls [.space, accentLexeme info, .literal (Literal.kept info.directory),
      .reset, .space, .segmentBreak, .space] =
        info.directory.filter CodePoint.isControlCode :=
    (controls_literal_cons info.directory _).trans (List.append_nil _)
  have htime : controls [.literal (Literal.kept info.time)] =
      info.time.filter CodePoint.isControlCode :=
    (controls_literal_cons info.time []).trans (List.append_nil _)
  rw [firstLine, controls_append, controls_append, controls_append, controls_append,
    controls_bubbleLexemes, hdirectory, controls_branchLexemes, htime, Info.texts]
  simp only [List.filter_append, List.filter_cons, hat, Bool.false_eq_true, if_false,
    List.append_assoc]
  rfl

theorem controls_secondLine (info : Info) : controls (secondLine info) = [] := by
  rw [secondLine, accentLexeme]
  rfl

/-- No glyph of a prompt is a control character. -/
theorem avoid_lexemes (info : Info) :
    ∀ lexeme ∈ firstLine info ++ .lineBreak :: secondLine info,
      lexeme.Avoid CodePoint.isControlCode := by
  have hcaps : Lexeme.Avoid CodePoint.isControlCode
      (.separators ⟨.one ⟨[CodePoint.ofNat 0xE0B6], [CodePoint.ofNat 0xE0B4]⟩, false⟩) := by
    rw [Lexeme.Avoid, Separators.Avoid]
    decide
  have hrule : Lexeme.Avoid CodePoint.isControlCode
      (.fill ⟨.glyph (CodePoint.ofNat 0x2500), []⟩) := by
    intro glyph hglyph last
    rw [List.mem_singleton.mp hglyph, FillGlyph.resolve]
    decide
  have hbubble : ∀ text color, ∀ lexeme ∈ bubbleLexemes text color,
      lexeme.Avoid CodePoint.isControlCode := by
    simp [bubbleLexemes, Lexeme.space, Lexeme.Avoid]
  have hbranch : ∀ lexeme ∈ branchLexemes info, lexeme.Avoid CodePoint.isControlCode := by
    rw [branchLexemes]
    split
    · rw [List.forall_mem_append]
      exact ⟨hbubble _ _, by simp [Lexeme.space, Lexeme.Avoid]⟩
    · simp
  have haccent : (accentLexeme info).Avoid CodePoint.isControlCode := trivial
  have hnone : ∀ lexeme ∈ ([] : List Lexeme), lexeme.Avoid CodePoint.isControlCode :=
    List.forall_mem_nil _
  simp only [firstLine, secondLine, List.forall_mem_append, List.forall_mem_cons]
  exact ⟨⟨⟨⟨⟨⟨hcaps, hrule, trivial, hnone⟩, hbubble _ _⟩,
    ⟨trivial, haccent, trivial, trivial, trivial, trivial, trivial, hnone⟩⟩, hbranch⟩,
    ⟨trivial, hnone⟩⟩, ⟨trivial, haccent, trivial, trivial, trivial, hnone⟩⟩

theorem filter_visible_compose (width : Int) (choices : Choices) (info : Info) :
    ((Rendering.ofMarkup width choices (compose info)).pieces.flatMap Piece.visible).filter
        CodePoint.isControlCode =
      info.texts.filter CodePoint.isControlCode ++ [CodePoint.lineFeed] := by
  obtain ⟨hlexemes, herror⟩ := lexemes_compose info
  have htokens : ∀ token ∈ (Lexing.ofMarkup (compose info)).tokens,
      token.lexeme.Avoid CodePoint.isControlCode := by
    intro token htoken
    refine avoid_lexemes info token.lexeme ?_
    rw [← hlexemes]
    exact List.mem_map_of_mem htoken
  rw [Rendering.filter_visible_ofMarkup width choices (by decide) herror htokens,
    ← List.flatMap_map, hlexemes]
  change controls (firstLine info ++ ([.lineBreak] ++ secondLine info)) = _
  rw [controls_append, controls_firstLine, controls_append, controls_secondLine, List.append_nil]
  rfl

/--
For every prompt, accent, width and choices, the control characters that are seen are those of the
texts that the prompt is given, in order, and the end of its first line. So the prompt stays on its
two lines, with no escape sequences but the renderer's own and no other control character, exactly
if the texts have no control character.
-/
theorem isContained_compose_iff (width : Int) (choices : Choices) (info : Info) :
    let rendering := Rendering.ofMarkup width choices (compose info)
    rendering.error = none ∧
      (rendering.pieces.flatMap Piece.visible).filter CodePoint.isControlCode =
        info.texts.filter CodePoint.isControlCode ++ [CodePoint.lineFeed] ∧
      (rendering.IsContained ↔ ∀ c ∈ info.texts, c.isControlCode = false) := by
  intro rendering
  have hseen := filter_visible_compose width choices info
  refine ⟨?_, hseen, ?_⟩
  · change (Rendering.ofMarkup width choices (compose info)).error = none
    rw [Rendering.ofMarkup, Rendering.ofLexing_of_error_eq_none (lexemes_compose info).2]
  · rw [Rendering.isContained_iff, hseen]
    simp [List.filter_eq_nil_iff]

/-- Neither a quote nor a character that cannot be printed or kept is a control character. -/
theorem isContained_compose_iff_quoted :
    let info : Info := ⟨"u", "h", "a\"b", "12:00:00", some [CodePoint.ofNat 0x10FFFF], none⟩
    let rendering := Rendering.ofMarkup 30 (.cycle [0]) (compose info)
    (∀ c ∈ info.texts, c.isControlCode = false) ∧ rendering.IsContained := by
  intro info rendering
  have htexts : ∀ c ∈ info.texts, c.isControlCode = false := by decide
  exact ⟨htexts, (isContained_compose_iff 30 (.cycle [0]) info).2.2.mpr htexts⟩

/-- A line feed in the name of the directory is a third line of the prompt. -/
theorem not_forall_isContained_compose :
    ¬ ∀ (width : Int) (choices : Choices) (info : Info),
      (Rendering.ofMarkup width choices (compose info)).IsContained := by
  intro hall
  have hlines := (hall 30 (.cycle [0]) ⟨"u", "h", "a\nb", "12:00:00", none, none⟩).oneLineFeed
  exact absurd hlines (by decide +kernel)

end Prompt

end ShellPrompt
