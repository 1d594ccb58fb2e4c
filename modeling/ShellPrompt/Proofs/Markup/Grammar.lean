import ShellPrompt.Text.Basic
/-!
The grammar of markup, said without a lexer: which texts are colors, attributes, color specs, the
insides of literals, items of glyph lists and tokens, and which texts are tokens and line ends put
together in any order.
-/

set_option autoImplicit false

namespace ShellPrompt

namespace Grammar

/-- One of eight letters, or `#` and six hexadecimal digits. -/
inductive IsColor : Text → Prop
  | letter {c : CodePoint} (h : c ∈ (['k', 'r', 'g', 'y', 'b', 'm', 'c', 'w'] : Text)) :
      IsColor [c]
  | hash {digits : Text} (hlength : digits.length = 6)
      (hhex : ∀ c ∈ digits, c.isHexDigit = true) : IsColor (CodePoint.ofChar '#' :: digits)

/-- Bold, italic, a foreground, or a colon and a background. -/
inductive IsAttribute : Text → Prop
  | bold : IsAttribute ['!']
  | italic : IsAttribute ['/']
  | foreground {color : Text} (h : IsColor color) : IsAttribute color
  | background {color : Text} (h : IsColor color) : IsAttribute (CodePoint.ofChar ':' :: color)

/-- One or more attributes. -/
inductive IsSpec : Text → Prop
  | single {first : Text} (h : IsAttribute first) : IsSpec first
  | more {first rest : Text} (h : IsAttribute first) (hrest : IsSpec rest) :
      IsSpec (first ++ rest)

/-- What stands between the quotes of a literal. -/
inductive IsQuoted : Text → Prop
  | nil : IsQuoted []
  | plain {c : CodePoint} {s : Text} (hquote : c ≠ CodePoint.ofChar '"')
      (hbackslash : c ≠ CodePoint.ofChar '\\') (h : IsQuoted s) : IsQuoted (c :: s)
  | escaped {c : CodePoint} {s : Text} (hu : c ≠ CodePoint.ofChar 'u') (h : IsQuoted s) :
      IsQuoted (CodePoint.ofChar '\\' :: c :: s)
  | number {digits s : Text} (hlength : digits.length = 4)
      (hhex : ∀ c ∈ digits, c.isHexDigit = true) (h : IsQuoted s) :
      IsQuoted (CodePoint.ofChar '\\' :: CodePoint.ofChar 'u' :: digits ++ s)

/-- An item of a glyph list; one that is a number of two or more digits is a code point. -/
structure IsItem (item : Text) : Prop where
  ne_nil : item ≠ []
  comma_not_mem : CodePoint.ofChar ',' ∉ item
  end_not_mem : CodePoint.ofChar ')' ∉ item
  codePoint : 2 ≤ item.length → (∀ c ∈ item, c.isHexDigit = true) →
    Text.hexNumber item ≤ 0x10FFFF

/-- A glyph list: what opens it, the items with commas between them, and a parenthesis. -/
def glyphList (opening : Text) (items : List Text) : Text :=
  opening ++ Text.join [','] items ++ ([')'] : Text)

inductive IsToken : Text → Prop
  | separators {items : List Text} (hcount : items.length = 0 ∨ items.length = 2 ∨ items.length = 4)
      (h : ∀ item ∈ items, IsItem item) : IsToken (glyphList ['S', '('] items)
  | inverted {items : List Text} (hcount : items.length = 0 ∨ items.length = 2 ∨ items.length = 4)
      (h : ∀ item ∈ items, IsItem item) : IsToken (glyphList ['S', '!', '('] items)
  | fill {items : List Text} (hcount : 1 ≤ items.length)
      (h : ∀ item ∈ items, IsItem item) : IsToken (glyphList ['F', '('] items)
  | segmentBreak : IsToken ['*']
  | lineBreak : IsToken ['|']
  | reset : IsToken ['0']
  | whitespace {t : Text} (hne : t ≠ [])
      (h : ∀ c ∈ t, c = CodePoint.ofChar ' ' ∨ c = CodePoint.ofChar '\t') : IsToken t
  | literal {inside : Text} (h : IsQuoted inside) :
      IsToken (CodePoint.ofChar '"' :: inside ++ ([CodePoint.ofChar '"'] : Text))
  | transition {c : CodePoint} (hc : c ∈ (['\x7b', '\x7d', '<', '>'] : Text)) : IsToken [c]
  | transitionSpec {c : CodePoint} {spec : Text} (hc : c ∈ (['\x7b', '\x7d', '<', '>'] : Text))
      (h : IsSpec spec) : IsToken (c :: spec)
  | spec {spec : Text} (h : IsSpec spec) : IsToken spec

/-- Tokens, carriage returns and line feeds in any order and number. -/
inductive IsMarkup : Text → Prop
  | nil : IsMarkup []
  | lineEnd {c : CodePoint} {rest : Text}
      (hc : c = CodePoint.ofChar '\r' ∨ c = CodePoint.ofChar '\n') (h : IsMarkup rest) :
      IsMarkup (c :: rest)
  | token {token rest : Text} (htoken : IsToken token) (h : IsMarkup rest) :
      IsMarkup (token ++ rest)

end Grammar

end ShellPrompt
