import ShellPrompt.Color.Style
import ShellPrompt.Markup.Glyphs
/-!
The tokens of markup: what each says, and the stretch of markup that says it.
-/

set_option autoImplicit false

namespace ShellPrompt

inductive Lexeme where
  | separators (separators : Separators)
  | fill (fill : Fill)
  | segmentBreak
  | whitespace (text : Text)
  | literal (text : Text)
  | lineBreak
  | reset
  | transition (transition : Transition) (spec : Option Spec)
  | spec (spec : Spec)
deriving DecidableEq

def Lexeme.kind : Lexeme → Text
  | separators _ => "SeparatorsToken"
  | fill _ => "FillToken"
  | segmentBreak => "SegmentBreak"
  | whitespace _ => "Whitespace"
  | literal _ => "Literal"
  | lineBreak => "LineBreak"
  | reset => "Reset"
  | transition _ _ => "Transition"
  | spec _ => "ColorSpec"

/-- A lexeme with its raw text, which begins at position `start` of the markup. -/
structure Token where
  start : Nat
  raw : Text
  lexeme : Lexeme
deriving DecidableEq

namespace Token

def stop (token : Token) : Nat :=
  token.start + token.raw.length

def shown (token : Token) : Text :=
  match token.lexeme with
  | .spec spec => spec.shown
  | lexeme =>
    Text.concat [lexeme.kind, "([", Text.decimal token.start, ":", Text.decimal token.stop, "]",
      token.raw, ")"]

end Token

end ShellPrompt
