import ShellPrompt.Text.Slice
import ShellPrompt.Text.Basic
/-!
What can be wrong with markup, and how it is reported: with its position and the markup around it.
-/

set_option autoImplicit false

namespace ShellPrompt

inductive MarkupFault where
  /-- No token begins with this character. -/
  | unrecognized (found : CodePoint)
  /-- A glyph list, given by how it opens, has no end. -/
  | unterminatedList (opening : Text)
  /-- A literal has no closing quote. -/
  | unterminatedLiteral
  /-- An item of this glyph list is empty. -/
  | emptyGlyph (list : Text)
  /-- A hexadecimal item is above U+10FFFF. -/
  | notACodePoint (item : Text)
  /-- This list of separators has a wrong number of glyphs. -/
  | separatorCount (count : Nat) (list : Text)
  /-- This fill has no glyphs. -/
  | emptyFill (list : Text)
  /-- `\u` in a literal lacks its four hexadecimal digits. -/
  | malformedEscape
  /-- No color has this letter; none stands for the end of the markup. -/
  | unknownColor (found : Option CodePoint)
  /-- A color has these digits where it needs six. -/
  | malformedColor (digits : Text)
deriving DecidableEq

namespace MarkupFault

def foundText (found : Option CodePoint) : Text :=
  found.elim "end of input" fun c => [c]

def unrecognizedMessage (found : Option CodePoint) : Text :=
  Text.concat ["Unrecognized token: ", foundText found]

def unknownColorMessage (color : Text) : Text :=
  Text.concat ["Unknown color: ", color]

def malformedColorMessage (color : Text) : Text :=
  Text.concat ["Malformed color, expected #rrggbb: ", color]

def color? : MarkupFault → Option Text
  | unknownColor found => some (foundText found)
  | malformedColor digits => some (CodePoint.ofChar '#' :: digits)
  | _ => none

def message : MarkupFault → Text
  | unrecognized found => unrecognizedMessage (some found)
  | unterminatedList opening => Text.concat ["Unterminated ", opening]
  | unterminatedLiteral => "Unterminated string"
  | emptyGlyph list => Text.concat ["Empty glyph in ", list]
  | notACodePoint item => Text.concat ["Not a code point: ", item]
  | separatorCount count list =>
    Text.concat ["Separators take 2 or 4 glyphs, not ", Text.decimal count, ": ", list]
  | emptyFill list => Text.concat ["Fill requires at least one glyph: ", list]
  | malformedEscape => "Malformed \\u escape"
  | unknownColor found => unknownColorMessage (foundText found)
  | malformedColor digits => malformedColorMessage (CodePoint.ofChar '#' :: digits)

end MarkupFault

def snippetSize : Int := 10

def reportAt (markup : Text) (position : Int) (message : Text) : Text :=
  let start := max (position - snippetSize) 0
  let stop := min (position + snippetSize + 1) markup.length
  Text.concat ["Markup error at position ", Text.integer position, " of \"",
    if 0 < start then "..." else "", between start stop markup,
    if stop < markup.length then "..." else "", "\": ", message]

structure MarkupError where
  markup : Text
  position : Nat
  fault : MarkupFault
deriving DecidableEq

def MarkupError.message (error : MarkupError) : Text :=
  reportAt error.markup error.position error.fault.message

end ShellPrompt
