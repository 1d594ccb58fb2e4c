import ShellPrompt.Text.Slice
import ShellPrompt.Text.Basic
/-!
A cursor: a stretch of a text whose end moves forward. Positions may lie outside the text, where
there is nothing to read.
-/

set_option autoImplicit false

namespace ShellPrompt

/-- A text and the stretch from `start` to `stop`. -/
structure Cursor where
  text : Text
  start : Int
  stop : Int
deriving DecidableEq

namespace Cursor

def ofPosition (text : Text) (position : Int) : Cursor := ⟨text, position, position⟩

def hasMore (cursor : Cursor) : Bool :=
  cursor.stop < cursor.text.length

def peek? (cursor : Cursor) (n : Int) : Option Text :=
  if cursor.stop + n ≤ cursor.text.length then
    some (between cursor.stop (cursor.stop + n) cursor.text)
  else none

def next (cursor : Cursor) : Option CodePoint × Cursor :=
  if cursor.hasMore then
    (elementAt? cursor.stop cursor.text, { cursor with stop := cursor.stop + 1 })
  else (none, cursor)

def isAt (cursor : Cursor) (symbol : Text) : Bool :=
  cursor.stop ≤ cursor.text.length && symbol.isPrefixOf (startingAt cursor.stop cursor.text)

def raw (cursor : Cursor) : Text :=
  between cursor.start cursor.stop cursor.text

end Cursor

end ShellPrompt
