import ShellPrompt.Number.Binary
import ShellPrompt.Text.Quoted
/-!
Values that accompany trace lines, and how they are written: texts in quotes, lists in brackets,
tables in braces.
-/

set_option autoImplicit false

namespace ShellPrompt

inductive Datum where
  | absent
  | truth (value : Bool)
  | integer (value : Int)
  | fraction (value : Float)
  | text (value : Text)
  | list (items : List Datum)
  | table (rows : List (Text × Datum))

namespace Datum

mutual

def shown : Datum → Text
  | absent => "None"
  | truth value => if value then "True" else "False"
  | integer value => Text.integer value
  | fraction value => fractionText value
  | text value => value.quoted
  | list items => (['['] : Text) ++ Text.join ", " (shownItems items) ++ ([']'] : Text)
  | table rows => (['{'] : Text) ++ Text.join ", " (shownRows rows) ++ (['}'] : Text)

def shownItems : List Datum → List Text
  | [] => []
  | item :: items => shown item :: shownItems items

def shownRows : List (Text × Datum) → List Text
  | [] => []
  | (key, value) :: rows => Text.concat [key.quoted, ": ", shown value] :: shownRows rows

end

end Datum

end ShellPrompt
