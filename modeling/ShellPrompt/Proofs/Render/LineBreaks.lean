import ShellPrompt.Render.Renderer
import ShellPrompt.Proofs.Render.Context
import ShellPrompt.Proofs.Text.Splitting
/-!
Rendering is compositional at line breaks: of all that a rendering knows, only the separators, the
fill and the random choices reach the next line. Main statement: what follows a line break is
rendered as it is alone, after the glyph lists that are still in force (`output_append_lineBreak`).
-/

set_option autoImplicit false

namespace ShellPrompt

namespace Rendering

theorem onward_prepend (width : Int) (drawing : Drawing) (tokens : List Token)
    (lexing : Lexing) :
    (onward width drawing (lexing.prepend tokens)).rows =
        (steps width drawing tokens).1.filterMap Event.row? ++
          (onward width (steps width drawing tokens).2 lexing).rows ∧
      (onward width drawing (lexing.prepend tokens)).final =
        (onward width (steps width drawing tokens).2 lexing).final ∧
      (onward width drawing (lexing.prepend tokens)).error =
        (onward width (steps width drawing tokens).2 lexing).error := by
  simp only [onward, Lexing.prepend, steps_append]
  cases lexing.error with
  | some error => exact ⟨List.filterMap_append, rfl, rfl⟩
  | none =>
    refine ⟨?_, rfl, rfl⟩
    simp only [rows, List.append_assoc, List.filterMap_append]

theorem onward_moved (width : Int) (drawing : Drawing) (lexing : Lexing) (markup : Text)
    (distance count : Nat) :
    (onward width (drawing.addLines count) (lexing.moved markup distance)).rows =
        (onward width drawing lexing).rows ∧
      (onward width (drawing.addLines count) (lexing.moved markup distance)).final =
        (onward width drawing lexing).final.addLines count ∧
      (onward width (drawing.addLines count) (lexing.moved markup distance)).error =
        (onward width drawing lexing).error.map (MarkupError.moved markup distance) := by
  have hrows : ∀ events : List Event,
      (events.map (Event.moved distance count)).filterMap Event.row? =
        events.filterMap Event.row? := by
    intro events
    rw [List.filterMap_map]
    exact List.filterMap_congr fun event _ => Event.row?_moved distance count event
  simp only [onward, Lexing.moved, steps_moved]
  cases lexing.error with
  | some error => exact ⟨hrows _, rfl, rfl⟩
  | none =>
    simp only [Option.map_none, Drawing.finishLine_addLines]
    refine ⟨?_, trivial, trivial⟩
    simp only [rows, List.filterMap_append, hrows]
    rfl

theorem linesWritten_onward (width : Int) (drawing : Drawing) (lexing : Lexing) :
    (onward width drawing lexing).final.linesWritten =
      drawing.linesWritten + (onward width drawing lexing).rows.length := by
  have hsteps := linesWritten_steps width drawing lexing.tokens
  simp only [onward]
  cases lexing.error with
  | some error => exact hsteps
  | none =>
    simp only [(Drawing.finishLine_eq _ _).2.2, hsteps, rows, List.filterMap_append,
      List.length_append]
    rfl

theorem ne_lineBreak_of_mem_carriedLexemes {lexing : Lexing} {lexeme : Lexeme}
    (h : lexeme ∈ lexing.carriedLexemes) : lexeme ≠ .lineBreak := by
  rw [Lexing.carriedLexemes, List.map_append, List.mem_append] at h
  rintro rfl
  rcases h with h | h
  · rcases last?_isSeparators lexing with hlast | ⟨separators, hlast⟩ <;> simp [hlast] at h
  · rcases last?_isFill lexing with hlast | ⟨fill, hlast⟩ <;> simp [hlast] at h

theorem onward_carried (width : Int) (drawing : Drawing) (before after : Text) :
    let carried := (Lexing.ofMarkup before).carried
    let alone := onward width
      ((Lexing.ofMarkup before).carriedLexemes.foldl Drawing.apply drawing) (Lexing.ofMarkup after)
    let second := onward width drawing (Lexing.ofMarkup (carried ++ after))
    second.rows = alone.rows ∧ second.final = alone.final ∧
      second.error = alone.error.map (MarkupError.moved (carried ++ after) carried.length) := by
  intro carried alone second
  obtain ⟨tokens, hlexemes, hlexing⟩ := Lexing.exists_prepend_of_carried before after
  have hbreaks : ∀ lexeme ∈ tokens.map Token.lexeme, lexeme ≠ .lineBreak := by
    rw [hlexemes]
    exact fun _ => ne_lineBreak_of_mem_carriedLexemes
  obtain ⟨hnone, hstate⟩ := steps_of_ne_lineBreak width drawing hbreaks
  obtain ⟨hrows, hfinal, herror⟩ := onward_prepend width drawing tokens
    ((Lexing.ofMarkup after).moved (carried ++ after) carried.length)
  obtain ⟨hrows', hfinal', herror'⟩ := onward_moved width
    ((Lexing.ofMarkup before).carriedLexemes.foldl Drawing.apply drawing) (Lexing.ofMarkup after)
    (carried ++ after) carried.length 0
  rw [hstate, hlexemes, ← hlexing] at hrows hfinal herror
  rw [hnone, List.nil_append] at hrows
  exact ⟨hrows.trans hrows', hfinal.trans hfinal', herror.trans herror'⟩

theorem onward_lineBreak (width : Int) (choices : Choices) {before : Text}
    (h : (Lexing.ofMarkup before).error = none) (after : Text) :
    let first := onward width (.start choices) (Lexing.ofMarkup before)
    let alone := onward width
      ((Lexing.ofMarkup before).carriedLexemes.foldl Drawing.apply (.start first.final.choices))
      (Lexing.ofMarkup after)
    let markup := before ++ CodePoint.ofChar '|' :: after
    let whole := onward width (.start choices) (Lexing.ofMarkup markup)
    whole.rows = first.rows ++ alone.rows ∧
      whole.final = alone.final.addLines first.final.linesWritten ∧
      whole.error = alone.error.map (MarkupError.moved markup (before.length + 1)) := by
  intro first alone markup whole
  let drawing := (steps width (.start choices) (Lexing.ofMarkup before).tokens).2
  let finished := drawing.finishLine width
  let lineBreak : Token := ⟨before.length, [CodePoint.ofChar '|'], .lineBreak⟩
  have hfirst : first =
      ⟨(steps width (.start choices) (Lexing.ofMarkup before).tokens).1 ++
        [.line finished.1 finished.2], finished.2, none⟩ := ofLexing_of_error_eq_none h
  have hbreak : steps width drawing [lineBreak] =
      ([.token lineBreak drawing, .line finished.1 finished.2], finished.2.startLine) := rfl
  have hrowsBefore : (steps width (.start choices)
      ((Lexing.ofMarkup before).tokens ++ [lineBreak])).1.filterMap Event.row? = first.rows := by
    rw [steps_append, hbreak, hfirst]
    simp only [rows, List.filterMap_append]
    rfl
  have hstate : (steps width (.start choices)
      ((Lexing.ofMarkup before).tokens ++ [lineBreak])).2 =
        ((Lexing.ofMarkup before).carriedLexemes.foldl Drawing.apply
          (.start first.final.choices)).addLines first.final.linesWritten := by
    rw [steps_append, hbreak, hfirst]
    exact startLine_finishLine_steps width choices (Lexing.ofMarkup before)
  obtain ⟨hrows, hfinal, herror⟩ := onward_prepend width (.start choices)
    ((Lexing.ofMarkup before).tokens ++ [lineBreak])
    ((Lexing.ofMarkup after).moved markup (before.length + 1))
  obtain ⟨hrows', hfinal', herror'⟩ := onward_moved width
    ((Lexing.ofMarkup before).carriedLexemes.foldl Drawing.apply (.start first.final.choices))
    (Lexing.ofMarkup after) markup (before.length + 1) first.final.linesWritten
  rw [hstate, ← Lexing.ofMarkup_append_lineBreak h] at hrows hfinal herror
  rw [hrowsBefore] at hrows
  exact ⟨hrows.trans (congrArg (first.rows ++ ·) hrows'), hfinal.trans hfinal',
    herror.trans herror'⟩

theorem rows_ne_nil (width : Int) (choices : Choices) {markup : Text}
    (h : (Lexing.ofMarkup markup).error = none) : (ofMarkup width choices markup).rows ≠ [] := by
  rw [ofMarkup, ofLexing_of_error_eq_none h]
  simp [rows, List.filterMap_append, Event.row?]

/--
Rendering two markups with a line break between them writes what the first writes, and after a
newline what the second writes behind the separators and the fill that the first ended with, if
that is any line at all. The choices of the second go on where those of the first ended, and it
fails as the second does, so much further on as there is more markup before it.
-/
theorem output_append_lineBreak (width : Int) (choices : Choices) (before after : Text)
    (h : (Lexing.ofMarkup before).error = none) :
    let carried := (Lexing.ofMarkup before).carried
    let first := ofMarkup width choices before
    let second := ofMarkup width first.final.choices (carried ++ after)
    let whole := ofMarkup width choices (before ++ CodePoint.ofChar '|' :: after)
    (∀ mode, whole.output mode = first.output mode ++
      if 0 < second.final.linesWritten then CodePoint.ofChar '\n' :: second.output mode else []) ∧
    whole.final.linesWritten = first.final.linesWritten + second.final.linesWritten ∧
    whole.final.choices = second.final.choices ∧
    whole.error.map (fun error => (error.position + carried.length, error.fault)) =
      second.error.map (fun error => (error.position + (before.length + 1), error.fault)) := by
  intro carried first second whole
  obtain ⟨hrows, hfinal, herror⟩ := onward_lineBreak width choices h after
  obtain ⟨hrows', hfinal', herror'⟩ := onward_carried width (.start first.final.choices)
    before after
  have hwhole : whole.rows = first.rows ++ second.rows :=
    hrows.trans (congrArg (first.rows ++ ·) hrows'.symm)
  have hlines : second.final.linesWritten = second.rows.length :=
    (linesWritten_onward width _ _).trans (Nat.zero_add _)
  refine ⟨?_, ?_, ?_, ?_⟩
  · intro mode
    have hne : first.rows.map (Row.written mode) ≠ [] := by
      simpa using rows_ne_nil width choices h
    have hcount : 0 < second.final.linesWritten ↔ ¬ second.rows.map (Row.written mode) = [] := by
      rw [hlines, List.map_eq_nil_iff, List.length_pos_iff]
    rw [output, hwhole, List.map_append, Text.join_append ['\n'] hne]
    by_cases hnone : second.rows.map (Row.written mode) = []
    · rw [if_pos hnone, if_neg (mt hcount.mp (not_not_intro hnone))]
      rfl
    · rw [if_neg hnone, if_pos (hcount.mpr hnone)]
      rfl
  · have htotal : whole.final.linesWritten =
        second.final.linesWritten + first.final.linesWritten := by
      rw [show whole.final = _ from hfinal, show second.final = _ from hfinal']
      rfl
    rw [htotal, Nat.add_comm]
  · rw [show whole.final = _ from hfinal, show second.final = _ from hfinal']
    rfl
  · rw [show whole.error = _ from herror, show second.error = _ from herror', Option.map_map,
      Option.map_map]
    congr 1
    funext error
    simp only [Function.comp_apply, MarkupError.moved, Nat.add_right_comm]
    rfl

/-- Both lines are drawn with the separators and the fill that the first line chooses. -/
theorem output_append_lineBreak_glyphs :
    let before : Text := "S(<,>)r\x7b\"a\"F(+-)*\"b\""
    let after : Text := "\x7b\"c\"*/\x7d"
    let first := ofMarkup 9 (.cycle [0, 1, 1]) before
    let second := ofMarkup 9 first.final.choices ((Lexing.ofMarkup before).carried ++ after)
    let whole := ofMarkup 9 (.cycle [0, 1, 1]) (before ++ CodePoint.ofChar '|' :: after)
    (Lexing.ofMarkup before).error = none ∧
      (Lexing.ofMarkup before).carried = "S(<,>)F(+-)" ∧ second.final.linesWritten = 1 ∧
      whole.output .zsh = first.output .zsh ++ CodePoint.ofChar '\n' :: second.output .zsh := by
  intro before after first second whole
  have hlexed : (Lexing.ofMarkup before).error = none := by decide +kernel
  have hlines : second.final.linesWritten = 1 := by decide +kernel
  have houtput := (output_append_lineBreak 9 (.cycle [0, 1, 1]) before after hlexed).1 .zsh
  rw [if_pos (by decide +kernel)] at houtput
  exact ⟨hlexed, by decide +kernel, hlines, houtput⟩

end Rendering

end ShellPrompt
