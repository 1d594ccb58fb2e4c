import ShellPrompt.Render.Drawing
import ShellPrompt.Trace.Entry
/-!
Rendering: markup drawn token by token and written line by line. A fault in the markup ends the
rendering; the lines finished before it are written and the unfinished line is not.
-/

set_option autoImplicit false

namespace ShellPrompt

inductive Event where
  /-- A token is about to be applied to this state. -/
  | token (token : Token) (before : Drawing)
  /-- A line was finished and led to this state. -/
  | line (row : Row) (after : Drawing)

namespace Event

def row? : Event → Option Row
  | token _ _ => none
  | line row _ => some row

def drawing : Event → Drawing
  | token _ before => before
  | line _ after => after

def entry (mode : ShellMode) : Event → TraceEntry
  | token t _ => ⟨"token", t.shown, none⟩
  | line row after =>
    ⟨"line", Text.decimal after.linesWritten, some (.text (row.written mode))⟩

end Event

/-- The events of a rendering in order, the state it ends in, and the fault that ended it. -/
structure Rendering where
  events : List Event
  final : Drawing
  error : Option MarkupError

namespace Rendering

def step (width : Int) (drawing : Drawing) (token : Token) : List Event × Drawing :=
  match token.lexeme with
  | .lineBreak =>
    let (row, after) := drawing.finishLine width
    ([.token token drawing, .line row after], after.startLine)
  | lexeme => ([.token token drawing], drawing.apply lexeme)

def steps (width : Int) (drawing : Drawing) : List Token → List Event × Drawing
  | [] => ([], drawing)
  | token :: tokens =>
    let (events, drawing) := step width drawing token
    let (more, drawing) := steps width drawing tokens
    (events ++ more, drawing)

def ofLexing (width : Int) (choices : Choices) (lexing : Lexing) : Rendering :=
  let (events, drawing) := steps width (.start choices) lexing.tokens
  match lexing.error with
  | some error => ⟨events, drawing, some error⟩
  | none =>
    let (row, after) := drawing.finishLine width
    ⟨events ++ [.line row after], after, none⟩

def ofMarkup (width : Int) (choices : Choices) (markup : Text) : Rendering :=
  ofLexing width choices (Lexing.ofMarkup markup)

def rows (rendering : Rendering) : List Row :=
  rendering.events.filterMap Event.row?

def output (mode : ShellMode) (rendering : Rendering) : Text :=
  Text.join ['\n'] (rendering.rows.map (Row.written mode))

end Rendering

end ShellPrompt
