import ShellPrompt.Setting
/-!
The width of the terminal: what the user asks for, else what the environment says, else what the
terminal answers, else eighty columns.
-/

set_option autoImplicit false

namespace ShellPrompt

namespace TerminalWidth

def fallback : Int := 80

def answered? (answer : Text) : Option Int :=
  match answer.fields[1]? with
  | none => none
  | some field => if field.all fun c => c.val < 0x80 then field.integer? else none

def resolve (asked : Setting) (columns : Option Text) (answer : Text) :
    Except ConfigurationError Int := do
  let width ← asked.integer? "Width"
  let width ← match width with
    | some width => pure (some width)
    | none => (Setting.ofText? (columns.filter fun t => !t.isEmpty)).integer? "COLUMNS"
  let width := (width.or (answered? answer)).getD fallback
  if width ≤ 0 then throw (.widthNotPositive width)
  return width

end TerminalWidth

end ShellPrompt
