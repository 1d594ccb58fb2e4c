import ShellPrompt.Text.Printable
/-!
Text shown between quotes, as traces and object descriptions show it. Single quotes stand around
it, or double quotes if it holds single quotes and no double ones; what does not print is escaped
by number.
-/

set_option autoImplicit false

namespace ShellPrompt

namespace Text

/-- The quote that needs the fewest escapes: the double quote only if single ones alone occur. -/
def quoteFor (t : Text) : CodePoint :=
  if t.contains '\'' && !t.contains '"' then '"' else '\''

def shownBetween (quote c : CodePoint) : Text :=
  if c = quote ∨ c = '\\' then ['\\', c]
  else if c = '\n' then ['\\', 'n']
  else if c = '\r' then ['\\', 'r']
  else if c = '\t' then ['\\', 't']
  else if c.isPrintable then [c]
  else if c.val < 0x100 then (['\\', 'x'] : Text) ++ hexadecimal 2 c.val
  else if c.val < 0x10000 then (['\\', 'u'] : Text) ++ hexadecimal 4 c.val
  else (['\\', 'U'] : Text) ++ hexadecimal 8 c.val

def quoted (t : Text) : Text :=
  let quote := quoteFor t
  quote :: t.flatMap (shownBetween quote) ++ [quote]

end Text

end ShellPrompt
