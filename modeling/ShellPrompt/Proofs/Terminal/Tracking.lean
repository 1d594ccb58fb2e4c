import ShellPrompt.Proofs.Render.Drawn
import ShellPrompt.Proofs.Render.Sequences
/-!
The renderer's style is what the terminal shows. Escape sequences are drawn only for differences,
so one that is missing or superfluous would spoil all that follows. Main statement: at every point
of every rendering, a terminal that read the escape sequences of the current line shows exactly the
tracked style, and each finished line leaves it plain (`terminal_follows_style`).
-/

set_option autoImplicit false

namespace ShellPrompt

/-- A terminal that was plain when a line began and reads its escape sequences shows its style. -/
theorem Drawn.afterSequences? {line : Line} {style : Style} (h : Drawn line style)
    (mode : ShellMode) : Style.plain.afterSequences? (line.sequences mode) = some style := by
  induction h with
  | start => rfl
  | text h t literal ih => simpa using ih
  | escape h hne ih =>
    rw [Line.sequences_draw, Piece.sequence?_escape, Style.afterSequences?_append, ih]
    exact Style.afterSequences?_escapeSequence _ hne
  | startSegment h ih => rwa [Line.sequences_startSegment]

/--
After any number of tokens, also of markup with a fault further on, a terminal that was plain at
the start of the line and read its escape sequences from their texts shows the style of the
renderer. So it does whenever a token is about to be drawn or a line was just finished, and every
finished line leaves it plain.
-/
theorem terminal_follows_style (mode : ShellMode) (width : Int) (choices : Choices)
    (markup : Text) :
    (∀ n, let drawing :=
        (Rendering.steps width (.start choices) ((Lexing.ofMarkup markup).tokens.take n)).2
      Style.plain.afterSequences? (drawing.line.sequences mode) = some drawing.style) ∧
    (∀ event ∈ (Rendering.ofMarkup width choices markup).events,
      Style.plain.afterSequences? (event.drawing.line.sequences mode) =
        some event.drawing.style) ∧
    (∀ row ∈ (Rendering.ofMarkup width choices markup).rows,
      Style.plain.afterSequences? (row.sequences mode) = some .plain) := by
  refine ⟨?_, ?_, ?_⟩
  · intro n
    exact Drawn.afterSequences? (Rendering.isDrawn_steps choices _).1 mode
  · intro event hevent
    have hdrawn := Rendering.isDrawn_ofMarkup choices markup event hevent
    exact hdrawn.drawing.afterSequences? mode
  · intro row hrow
    obtain ⟨line, hdrawn, hsegments⟩ := Rendering.exists_drawn_of_mem_rows hrow
    rw [Row.sequences, hsegments]
    exact hdrawn.afterSequences? mode

/-- A region with separators in two colors: seven sequences are drawn on its line. -/
theorem terminal_follows_style_region :
    let markup : Text := "S(e0b6,e0b4)b\x7b:r!\"x\"\x7d*|/g\"y\""
    let rendering := Rendering.ofMarkup 10 (.cycle [0]) markup
    (∃ event ∈ rendering.events, event.drawing.style = ⟨.default, .basic .red, true, false⟩ ∧
      Style.plain.afterSequences? (event.drawing.line.sequences .zsh) =
        some event.drawing.style) ∧
    ∃ row ∈ rendering.rows, (row.sequences .zsh).length = 7 ∧
      Style.plain.afterSequences? (row.sequences .zsh) = some .plain := by
  intro markup rendering
  have hfollows := terminal_follows_style .zsh 10 (.cycle [0]) markup
  constructor
  · have hevent := List.get_mem rendering.events ⟨3, by decide +kernel⟩
    exact ⟨_, hevent, by decide +kernel, hfollows.2.1 _ hevent⟩
  · have hrow := List.get_mem rendering.rows ⟨0, by decide +kernel⟩
    exact ⟨_, hrow, by decide +kernel, hfollows.2.2 _ hrow⟩

end ShellPrompt
