import ShellPrompt.Markup.ColorSpec
import ShellPrompt.Markup.Literal
/-!
Lexing: markup as a sequence of tokens. Line ends between tokens are skipped. Where several kinds
of token could begin, glyph lists come first and color specs last; each token takes as much as it
can. A fault ends the sequence, and the tokens before it stand.
-/

set_option autoImplicit false

namespace ShellPrompt

/-- Line ends in markup part tokens and mean nothing else. -/
def CodePoint.isLineEnd (c : CodePoint) : Bool :=
  c = '\r' || c = '\n'

def CodePoint.isSpacing (c : CodePoint) : Bool :=
  c = ' ' || c = '\t'

namespace Lexeme

def scanTransition (t : Transition) (rest : Text) : Scan Lexeme :=
  if ColorSpec.begins rest then
    match ColorSpec.scan rest with
    | .error e => .error e
    | .ok (attributes, rest) => .ok (.transition t (some attributes), rest)
  else .ok (.transition t none, rest)

def scanLiteral (c : CodePoint) (rest : Text) : Scan Lexeme :=
  match Literal.scanInside (c :: rest) rest with
  | .error e => .error e
  | .ok (text, rest) => .ok (.literal text, rest)

def scanSpec (s : Text) : Scan Lexeme :=
  match ColorSpec.scan s with
  | .error e => .error e
  | .ok (attributes, rest) => .ok (.spec attributes, rest)

def scan (c : CodePoint) (rest : Text) : Scan Lexeme :=
  if GlyphList.separatorsOpening.isPrefixOf (c :: rest) then
    GlyphList.scanSeparators false (c :: rest)
  else if GlyphList.invertedOpening.isPrefixOf (c :: rest) then
    GlyphList.scanSeparators true (c :: rest)
  else if GlyphList.fillOpening.isPrefixOf (c :: rest) then GlyphList.scanFill (c :: rest)
  else if c = '*' then .ok (.segmentBreak, rest)
  else if c.isSpacing then
    .ok (.whitespace (c :: rest.takeWhile CodePoint.isSpacing), rest.dropWhile CodePoint.isSpacing)
  else if c = '"' then scanLiteral c rest
  else if c = '|' then .ok (.lineBreak, rest)
  else if c = '0' then .ok (.reset, rest)
  else
    match Transition.ofSymbol? c with
    | some t => scanTransition t rest
    | none =>
      if ColorSpec.begins (c :: rest) then scanSpec (c :: rest)
      else .error ⟨c :: rest, .unrecognized c⟩

theorem length_le_of_scanTransition {t : Transition} {s rest : Text} {lexeme : Lexeme}
    (h : scanTransition t s = .ok (lexeme, rest)) : rest.length ≤ s.length := by
  unfold scanTransition at h
  split at h
  · split at h
    · cases h
    next hscan =>
      cases h
      exact ColorSpec.length_le_of_scanAfter hscan
  · cases h
    exact Nat.le_refl _

theorem length_lt_of_scan {c : CodePoint} {s rest : Text} {lexeme : Lexeme}
    (h : scan c s = .ok (lexeme, rest)) : rest.length < (c :: s).length := by
  unfold scan at h
  split at h
  · exact GlyphList.length_lt_of_scan h
  split at h
  · exact GlyphList.length_lt_of_scan h
  split at h
  · exact GlyphList.length_lt_of_scan h
  split at h
  · cases h
    simp
  split at h
  · cases h
    have := (List.dropWhile_sublist CodePoint.isSpacing (l := s)).length_le
    simp only [List.length_cons]
    omega
  split at h
  · unfold scanLiteral at h
    split at h
    · cases h
    next hinside =>
      cases h
      exact Nat.lt_succ_of_lt (Literal.length_lt_of_scanInside hinside)
  split at h
  · cases h
    simp
  split at h
  · cases h
    simp
  split at h
  · exact Nat.lt_succ_of_le (length_le_of_scanTransition h)
  split at h
  next hbegins =>
    unfold scanSpec at h
    split at h
    · cases h
    next hscan =>
      cases h
      exact ColorSpec.length_lt_of_scan hbegins hscan
  · cases h

end Lexeme

/-- The tokens of markup, up to its first fault. -/
structure Lexing where
  tokens : List Token
  error : Option MarkupError
deriving DecidableEq

namespace Lexing

/-- The tokens of the end `s` of some markup, which begins at `position`. -/
def ofRest (markup : Text) (position : Nat) : Text → Lexing
  | [] => ⟨[], none⟩
  | c :: s =>
    if c.isLineEnd then ofRest markup (position + 1) s
    else
      match _h : Lexeme.scan c s with
      | .error e => ⟨[], some ⟨markup, position + ((c :: s).length - e.rest.length), e.fault⟩⟩
      | .ok (lexeme, rest) =>
        let raw := (c :: s).take ((c :: s).length - rest.length)
        let after := ofRest markup (position + raw.length) rest
        ⟨⟨position, raw, lexeme⟩ :: after.tokens, after.error⟩
termination_by s => s.length
decreasing_by
  · simp
  · exact Lexeme.length_lt_of_scan _h

def ofMarkup (markup : Text) : Lexing :=
  ofRest markup 0 markup

end Lexing

/-- Reads a text as a color spec; what follows the spec is left aside. -/
def Spec.ofText (text : Text) : Except MarkupError Spec :=
  match ColorSpec.scan text with
  | .error e => .error ⟨text, text.length - e.rest.length, e.fault⟩
  | .ok (spec, _) => .ok spec

end ShellPrompt
