import ShellPrompt.Color.Basic
/-!
What a terminal shows text in, and how one style is reached from another. Bold and italic are
sticky: only a reset turns them off, so a change of style never does.
-/

set_option autoImplicit false

namespace ShellPrompt

/-- The colors and attributes that a terminal currently draws with. -/
structure Style where
  foreground : Color
  background : Color
  bold : Bool
  italic : Bool
deriving DecidableEq

/-- The parts of a style that markup sets. -/
structure Spec where
  foreground : Option Color
  background : Option Color
  bold : Bool
  italic : Bool
deriving DecidableEq

def Spec.empty : Spec := ⟨none, none, false, false⟩

def Spec.andThen (first second : Spec) : Spec where
  foreground := second.foreground.or first.foreground
  background := second.background.or first.background
  bold := first.bold || second.bold
  italic := first.italic || second.italic

def Spec.shown (spec : Spec) : Text :=
  let color (c : Option Color) : Text := c.elim "None" Color.shown
  let truth (b : Bool) : Text := if b then "True" else "False"
  Text.concat ["ColorSpec(fg=", color spec.foreground, ", bg=", color spec.background,
    ", bold=", truth spec.bold, ", italic=", truth spec.italic, ")"]

namespace Style

/-- What a terminal starts in and what a reset leaves. -/
def plain : Style := ⟨.default, .default, false, false⟩

def apply (style : Style) (spec : Spec) : Style where
  foreground := spec.foreground.getD style.foreground
  background := spec.background.getD style.background
  bold := style.bold || spec.bold
  italic := style.italic || spec.italic

def afterSpec (style : Style) (spec : Option Spec) : Style :=
  spec.elim style style.apply

def resetCode : Text := ['0']

def boldCode : Text := ['1']

def italicCode : Text := ['3']

/-- The target with the attributes that only a reset could turn off. -/
def reachable (style target : Style) : Style :=
  { target with bold := target.bold || style.bold, italic := target.italic || style.italic }

/-- The codes for what is on in the target and not here, and for the colors that differ. -/
def codesTo (style target : Style) : List Text :=
  (if target.bold && !style.bold then [boldCode] else []) ++
  (if target.italic && !style.italic then [italicCode] else []) ++
  (if target.foreground = style.foreground then []
    else [target.foreground.code .foreground]) ++
  (if target.background = style.background then []
    else [target.background.code .background])

theorem apply_andThen (style : Style) (first second : Spec) :
    style.apply (first.andThen second) = (style.apply first).apply second := by
  cases first with
  | mk f g b i =>
    cases second with
    | mk f' g' b' i' =>
      cases f' <;> cases g' <;> simp [apply, Spec.andThen, Bool.or_assoc]

end Style

def escapeSequence (codes : List Text) : Text :=
  (['\x1b', '['] : Text) ++ Text.join [';'] codes ++ (['m'] : Text)

end ShellPrompt
