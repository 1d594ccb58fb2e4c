import ShellPrompt.Text.Basic
/-!
The glyphs that markup chooses: separators, drawn where a region begins or ends, and fills, which
widen the gaps of a line. A set of separators has no glyph, one pair, or two; a fill has at least
one glyph.
-/

set_option autoImplicit false

namespace ShellPrompt

/-- What `{`, `}`, `<` and `>` do: begin or end a region, or mark a border inside one. -/
inductive Transition where
  | push | pop | opening | closing
deriving DecidableEq

namespace Transition

def symbol : Transition → CodePoint
  | push => '{'
  | pop => '}'
  | opening => '<'
  | closing => '>'

def all : List Transition := [push, pop, opening, closing]

/-- The place in that order: even for what opens, odd for what closes. -/
def index : Transition → Nat
  | push => 0
  | pop => 1
  | opening => 2
  | closing => 3

def ofSymbol? (c : CodePoint) : Option Transition :=
  all.find? fun t => t.symbol = c

theorem ofSymbol?_eq_some_iff {c : CodePoint} {t : Transition} :
    ofSymbol? c = some t ↔ c = t.symbol := by
  constructor
  · intro h
    have := List.find?_some h
    simpa [eq_comm] using this
  · rintro rfl
    cases t <;> decide

end Transition

structure GlyphPair where
  opening : Text
  closing : Text
deriving DecidableEq

/-- No glyphs, one pair for all transitions, or a second pair for `<` and `>`. -/
inductive GlyphSet where
  | none
  | one (pair : GlyphPair)
  | two (regions borders : GlyphPair)
deriving DecidableEq

structure Separators where
  glyphs : GlyphSet
  inverted : Bool
deriving DecidableEq

namespace GlyphSet

def ofList? : List Text → Option GlyphSet
  | [] => some none
  | [a, b] => some (one ⟨a, b⟩)
  | [a, b, c, d] => some (two ⟨a, b⟩ ⟨c, d⟩)
  | _ => Option.none

def toList : GlyphSet → List Text
  | none => []
  | one p => [p.opening, p.closing]
  | two p q => [p.opening, p.closing, q.opening, q.closing]

@[simp] theorem ofList?_toList (set : GlyphSet) : ofList? set.toList = some set := by
  cases set <;> rfl

theorem ofList?_eq_some_iff {glyphs : List Text} {set : GlyphSet} :
    ofList? glyphs = some set ↔ glyphs = set.toList := by
  constructor
  · intro h
    unfold ofList? at h
    split at h <;> first | (cases h; rfl) | cases h
  · rintro rfl
    exact ofList?_toList set

def pair? (set : GlyphSet) (t : Transition) : Option GlyphPair :=
  match set, t with
  | none, _ => Option.none
  | one p, _ => some p
  | two p _, .push => some p
  | two p _, .pop => some p
  | two _ q, .opening => some q
  | two _ q, .closing => some q

end GlyphSet

namespace Separators

def empty : Separators := ⟨.none, false⟩

/-- Whether a transition draws the closing glyph: `}` and `>` do, unless inverted. -/
def closes (separators : Separators) (t : Transition) : Bool :=
  (t.index % 2 == 1) != separators.inverted

def glyph? (separators : Separators) (t : Transition) : Option Text :=
  (separators.glyphs.pair? t).map fun pair =>
    if separators.closes t then pair.closing else pair.opening

end Separators

/-- A glyph of a fill: a character, or the last literal character before the gap. -/
inductive FillGlyph where
  | glyph (c : CodePoint)
  | repeatLast
deriving DecidableEq

structure Fill where
  first : FillGlyph
  others : List FillGlyph
deriving DecidableEq

namespace Fill

def blank : Fill := ⟨.glyph ' ', []⟩

def ofList? : List FillGlyph → Option Fill
  | [] => none
  | g :: gs => some ⟨g, gs⟩

def toList (fill : Fill) : List FillGlyph :=
  fill.first :: fill.others

@[simp] theorem ofList?_toList (fill : Fill) : ofList? fill.toList = some fill := rfl

end Fill

/-- The character that a fill glyph draws after `last`, the last literal character. -/
def FillGlyph.resolve (last : Option CodePoint) : FillGlyph → CodePoint
  | glyph c => c
  | repeatLast => last.getD ' '

end ShellPrompt
