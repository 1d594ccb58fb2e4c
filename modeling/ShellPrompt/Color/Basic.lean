import ShellPrompt.Text.Basic
/-!
Terminal colors: the terminal's default, the eight basic colors with a letter each, and colors
given by red, green and blue. Each has a code for the foreground and one for the background.
-/

set_option autoImplicit false

namespace ShellPrompt

inductive BasicColor where
  | black | red | green | yellow | blue | magenta | cyan | white
deriving DecidableEq

namespace BasicColor

def letter : BasicColor → CodePoint
  | black => 'k'
  | red => 'r'
  | green => 'g'
  | yellow => 'y'
  | blue => 'b'
  | magenta => 'm'
  | cyan => 'c'
  | white => 'w'

def number : BasicColor → Nat
  | black => 0
  | red => 1
  | green => 2
  | yellow => 3
  | blue => 4
  | magenta => 5
  | cyan => 6
  | white => 7

def all : List BasicColor :=
  [black, red, green, yellow, blue, magenta, cyan, white]

def ofLetter? (c : CodePoint) : Option BasicColor :=
  all.find? fun color => color.letter = c

@[simp] theorem ofLetter?_letter (color : BasicColor) : ofLetter? color.letter = some color := by
  cases color <;> decide

theorem ofLetter?_eq_some_iff {c : CodePoint} {color : BasicColor} :
    ofLetter? c = some color ↔ c = color.letter := by
  constructor
  · intro h
    have := List.find?_some h
    simpa [eq_comm] using this
  · rintro rfl
    exact ofLetter?_letter color

end BasicColor

inductive Ground where
  | foreground | background
deriving DecidableEq

def Ground.digit : Ground → Text
  | foreground => ['3']
  | background => ['4']

structure Rgb where
  red : Fin 256
  green : Fin 256
  blue : Fin 256
deriving DecidableEq

namespace Rgb

/-- A component, counted modulo 256. -/
def component (n : Nat) : Fin 256 :=
  ⟨n % 256, Nat.mod_lt n (Nat.zero_lt_succ 255)⟩

def ofNumbers (red green blue : Nat) : Rgb :=
  ⟨component red, component green, component blue⟩

def ofComponents? (red green blue : Int) : Option Rgb :=
  if h : (0 ≤ red ∧ red < 256) ∧ (0 ≤ green ∧ green < 256) ∧ (0 ≤ blue ∧ blue < 256) then
    some ⟨⟨red.toNat, by omega⟩, ⟨green.toNat, by omega⟩, ⟨blue.toNat, by omega⟩⟩
  else none

def components (color : Rgb) : List Nat :=
  [color.red.val, color.green.val, color.blue.val]

def ofHexDigits (digits : Text) : Rgb :=
  let component (i : Nat) : Fin 256 := Fin.ofNat 256 (Text.hexNumber ((digits.drop i).take 2))
  ⟨component 0, component 2, component 4⟩

def hex (color : Rgb) : Text :=
  CodePoint.ofChar '#' :: Text.concat (color.components.map (Text.hexadecimal 2))

end Rgb

inductive Color where
  | default
  | basic (color : BasicColor)
  | rgb (color : Rgb)
deriving DecidableEq

namespace Color

/-- The code that selects a color for a side; 39 and 49 go back to the terminal's default. -/
def code (ground : Ground) : Color → Text
  | default => ground.digit ++ (['9'] : Text)
  | basic color => ground.digit ++ Text.decimal color.number
  | rgb color =>
    ground.digit ++ Text.join [';'] ("8" :: "2" :: color.components.map Text.decimal)

def shown : Color → Text
  | default => "NoColor()"
  | basic color => Text.concat ["Named(", [color.letter], ")"]
  | rgb color =>
    Text.concat ["TrueColor(", Text.join ", " (color.components.map Text.decimal), ")"]

end Color

end ShellPrompt
