import ShellPrompt.Color.Basic
import ShellPrompt.Text.Slice
/-!
The palette that repositories get their colors from: thirteen hues around a wheel, from red to rose
and back to red, and one gray beside it. Each has a bright and a dim color.
-/

set_option autoImplicit false

namespace ShellPrompt

structure PaletteEntry where
  name : Text
  bright : Rgb
  dim : Rgb
deriving DecidableEq

def PaletteEntry.shown (entry : PaletteEntry) : Text :=
  Text.concat ["PaletteEntry(", Text.join ", " [entry.name, entry.bright.hex, entry.dim.hex], ")"]

namespace Palette

/-- The entries in the order of the wheel, so that neighbors look alike. -/
def entries : List PaletteEntry :=
  [⟨"red", .ofNumbers 255 95 95, .ofNumbers 135 0 0⟩,
   ⟨"orange", .ofNumbers 255 175 95, .ofNumbers 135 75 0⟩,
   ⟨"amber", .ofNumbers 255 215 95, .ofNumbers 128 105 0⟩,
   ⟨"lime", .ofNumbers 175 255 95, .ofNumbers 75 120 0⟩,
   ⟨"green", .ofNumbers 95 215 95, .ofNumbers 0 95 0⟩,
   ⟨"teal", .ofNumbers 95 215 175, .ofNumbers 0 100 80⟩,
   ⟨"cyan", .ofNumbers 95 215 255, .ofNumbers 0 95 120⟩,
   ⟨"azure", .ofNumbers 95 175 255, .ofNumbers 0 65 135⟩,
   ⟨"blue", .ofNumbers 135 135 255, .ofNumbers 30 30 140⟩,
   ⟨"violet", .ofNumbers 175 135 255, .ofNumbers 75 30 140⟩,
   ⟨"purple", .ofNumbers 215 135 255, .ofNumbers 100 20 125⟩,
   ⟨"magenta", .ofNumbers 255 135 215, .ofNumbers 125 0 95⟩,
   ⟨"rose", .ofNumbers 255 135 175, .ofNumbers 135 0 60⟩,
   ⟨"slate", .ofNumbers 188 188 188, .ofNumbers 68 68 68⟩]

def size : Nat := 14

theorem length_entries : entries.length = size := rfl

def entry? (place : Int) : Option PaletteEntry :=
  elementAt? place entries

def indexOf? (name : Text) : Option Nat :=
  entries.findIdx? fun entry => entry.name = name

end Palette

end ShellPrompt
