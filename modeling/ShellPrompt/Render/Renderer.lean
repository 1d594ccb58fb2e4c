import ShellPrompt.Render.Rendering
/-!
A renderer that is used for one markup after the other. It keeps what the last rendering left, also
where a fault ended that. The next one goes on with the random choices, and clears all else first.
-/

set_option autoImplicit false

namespace ShellPrompt

/-- Renders tokens from any state on, as `ofLexing` does from the start. -/
def Rendering.onward (width : Int) (drawing : Drawing) (lexing : Lexing) : Rendering :=
  let before := steps width drawing lexing.tokens
  match lexing.error with
  | some error => ⟨before.1, before.2, some error⟩
  | none =>
    let last := before.2.finishLine width
    ⟨before.1 ++ [.line last.1 last.2], last.2, none⟩

/-- The width of the lines, and the state that the last rendering ended in. -/
structure Renderer where
  width : Int
  drawing : Drawing

namespace Renderer

def ofChoices (width : Int) (choices : Choices) : Renderer :=
  ⟨width, .start choices⟩

def cleared (renderer : Renderer) : Drawing :=
  { renderer.drawing with separators := .empty, fill := .blank, linesWritten := 0 }.startLine

def render (renderer : Renderer) (markup : Text) : Rendering :=
  .onward renderer.width renderer.cleared (Lexing.ofMarkup markup)

def after (renderer : Renderer) (markup : Text) : Renderer :=
  { renderer with drawing := (renderer.render markup).final }

end Renderer

end ShellPrompt
