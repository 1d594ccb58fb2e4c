import ShellPrompt.Text.Printable
/-!
Text written as a markup literal. Quotes and backslashes are escaped, and so is by number what does
not print; a literal has no number for what is above U+FFFF, so U+FFFD stands in for it.
-/

set_option autoImplicit false

namespace ShellPrompt

namespace Literal

def escapeNumber (c : CodePoint) : Nat :=
  if c.val ≤ 0xFFFF then c.val else 0xFFFD

def quoteOne (prints : CodePoint → Bool) (c : CodePoint) : Text :=
  if c = '"' ∨ c = '\\' then ['\\', c]
  else if prints c then [c]
  else (['\\', 'u'] : Text) ++ Text.hexadecimal 4 (escapeNumber c)

/-- The literal of a text, given which characters print. -/
def quoteBy (prints : CodePoint → Bool) (t : Text) : Text :=
  CodePoint.ofChar '"' :: t.flatMap (quoteOne prints) ++ (['"'] : Text)

def quote (t : Text) : Text :=
  quoteBy CodePoint.isPrintable t

end Literal

end ShellPrompt
