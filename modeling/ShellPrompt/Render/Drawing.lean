import ShellPrompt.Markup.Lexing
import ShellPrompt.Render.Line
/-!
Drawing: what each token does. Escape sequences are drawn only for what changes. A transition may
draw a separator; where the background changes across it, the separator is drawn in two colors,
one background as its foreground and the other as its background, so that one color flows into
the other.
-/

set_option autoImplicit false

namespace ShellPrompt

/--
The state between tokens. Separators and fill hold for the rest of the markup; the line, its
style and the stack of styles to go back to hold until the line ends.
-/
structure Drawing where
  separators : Separators
  fill : Fill
  linesWritten : Nat
  line : Line
  style : Style
  stack : List Style
  choices : Choices

namespace Drawing

def start (choices : Choices) : Drawing where
  separators := .empty
  fill := .blank
  linesWritten := 0
  line := .empty
  style := .plain
  stack := []
  choices := choices

def text (drawing : Drawing) (t : Text) (literal : Bool) : Drawing :=
  { drawing with line := drawing.line.draw (.text t literal) }

/-- Goes to a style as far as that is possible without a reset. -/
def changeStyle (drawing : Drawing) (target : Style) : Drawing :=
  let target := drawing.style.reachable target
  let codes := drawing.style.codesTo target
  { drawing with
    line := if codes.isEmpty then drawing.line else drawing.line.draw (.escape codes)
    style := target }

def reset (drawing : Drawing) : Drawing :=
  { drawing with
    line := drawing.line.draw (.escape [Style.resetCode])
    style := .plain }

def destination (drawing : Drawing) (t : Transition) (spec : Option Spec) : Style × List Style :=
  match t with
  | .push => (drawing.style.afterSpec spec, drawing.style :: drawing.stack)
  | .pop =>
    match drawing.stack with
    | [] => (Style.plain.afterSpec spec, [])
    | restored :: stack => (restored.afterSpec spec, stack)
  | _ => (drawing.style.afterSpec spec, drawing.stack)

def separatorStyle (closes : Bool) (old target : Style) : Style :=
  { old with
    foreground := if closes then old.background else target.background
    background := if closes then target.background else old.background }

/--
Draws the separator of a transition, if it has one, and answers the style to go on with. After a
separator in two colors the foreground starts afresh, except where a region ends.
-/
def separate (drawing : Drawing) (t : Transition) (spec : Option Spec) (target : Style) :
    Drawing × Style :=
  match drawing.separators.glyph? t with
  | none => (drawing, target)
  | some glyph =>
    if target.background = drawing.style.background then (drawing.text glyph false, target)
    else
      let style := separatorStyle (drawing.separators.closes t) drawing.style target
      let target :=
        if t = .pop then target
        else { target with foreground := (spec.bind Spec.foreground).getD .default }
      ((drawing.changeStyle style).text glyph false, target)

def transition (drawing : Drawing) (t : Transition) (spec : Option Spec) : Drawing :=
  let (target, stack) := drawing.destination t spec
  let (drawing, target) := { drawing with stack := stack }.separate t spec target
  (if t = .pop then drawing.reset else drawing).changeStyle target

def apply (drawing : Drawing) : Lexeme → Drawing
  | .separators separators => { drawing with separators := separators }
  | .fill fill => { drawing with fill := fill }
  | .segmentBreak => { drawing with line := drawing.line.startSegment }
  | .whitespace t => drawing.text t false
  | .literal t => drawing.text t true
  | .lineBreak => drawing
  | .reset => drawing.reset
  | .transition t spec => drawing.transition t spec
  | .spec spec => drawing.changeStyle (drawing.style.apply spec)

/-- Ends the line: leaves the terminal in the plain style and justifies what was drawn. -/
def finishLine (width : Int) (drawing : Drawing) : Row × Drawing :=
  let drawing := if drawing.style = .plain then drawing else drawing.reset
  let (row, choices) := Row.justify width drawing.fill drawing.line drawing.choices
  (row, { drawing with linesWritten := drawing.linesWritten + 1, choices := choices })

def startLine (drawing : Drawing) : Drawing :=
  { drawing with line := .empty, style := .plain, stack := [] }

end Drawing

end ShellPrompt
