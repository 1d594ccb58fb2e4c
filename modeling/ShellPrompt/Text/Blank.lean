import ShellPrompt.Text.Basic
import ShellPrompt.Text.RangeTable
/-!
White space: what is trimmed from the ends of a text, what may stand around a number, and what
parts the fields of a line.
-/

set_option autoImplicit false

namespace ShellPrompt

/-- Every separator, tabulation, line end and information separator. -/
def blanks : RangeTable :=
  [(0x9, 0xd), (0x1c, 0x20), (0x85, 0x85), (0xa0, 0xa0), (0x1680, 0x1680), (0x2000, 0x200a),
   (0x2028, 0x2029), (0x202f, 0x202f), (0x205f, 0x205f), (0x3000, 0x3000)]

namespace CodePoint

def isBlank (c : CodePoint) : Bool :=
  blanks.contains c.val

/-- White space that may stand around a number: all but the four information separators. -/
def isPadding (c : CodePoint) : Bool :=
  c.isBlank && !(0x1c ≤ c.val && c.val ≤ 0x1f)

def isFieldBreak (c : CodePoint) : Bool :=
  c.val == 0x20 || (0x9 ≤ c.val && c.val ≤ 0xd)

end CodePoint

namespace Text

def trimBy (p : CodePoint → Bool) (t : Text) : Text :=
  ((t.dropWhile p).reverse.dropWhile p).reverse

def trim (t : Text) : Text :=
  trimBy CodePoint.isBlank t

def fields : Text → List Text
  | [] => []
  | c :: rest =>
    if c.isFieldBreak then fields rest
    else match rest, fields rest with
      | d :: _, field :: more =>
        if d.isFieldBreak then [c] :: field :: more else (c :: field) :: more
      | _, more => [c] :: more

end Text

end ShellPrompt
