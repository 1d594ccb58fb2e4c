import ShellPrompt.Failure
import ShellPrompt.Text.Integer
/-!
Settings that are integers, as a flag, an environment variable or a caller gives them.
-/

set_option autoImplicit false

namespace ShellPrompt

inductive Setting where
  | absent
  | number (value : Int)
  | written (text : Text)
deriving DecidableEq

namespace Setting

def ofText? (text : Option Text) : Setting :=
  text.elim absent written

def integer? (description : Text) : Setting → Except ConfigurationError (Option Int)
  | absent => .ok none
  | number value => .ok (some value)
  | written text =>
    match text.integer? with
    | some value => .ok (some value)
    | none => .error (.notAnInteger description text)

end Setting

end ShellPrompt
