import ShellPrompt.Failure
/-!
Shell modes. A shell's line editor has to know which parts of a prompt take no columns, and the
shell itself expands some characters of a prompt. A mode says how escape sequences are bracketed
for the one and how text is protected from the other.
-/

set_option autoImplicit false

namespace ShellPrompt

/-- How a prompt is written for a shell; `raw` is for a terminal without one. -/
inductive ShellMode where
  | raw | zsh | bash
deriving DecidableEq

namespace ShellMode

def before : ShellMode → Text
  | raw => []
  | zsh => ['%', '{']
  | bash => ['\\', '[']

def after : ShellMode → Text
  | raw => []
  | zsh => ['%', '}']
  | bash => ['\\', ']']

def wrap (mode : ShellMode) (sequence : Text) : Text :=
  mode.before ++ sequence ++ mode.after

/-- Text with the character that the shell would expand written twice. -/
def protect (mode : ShellMode) (text : Text) : Text :=
  match mode with
  | raw => text
  | zsh => Text.double '%' text
  | bash => Text.double '\\' text

/-- The mode of a shell by the name of its process; a login shell's begins with a dash. -/
def ofProcess (name : Text) : ShellMode :=
  let name := name.dropWhile fun (c : CodePoint) => c = '-'
  if (Text.ofString "zsh").isPrefixOf name then zsh
  else if (Text.ofString "bash").isPrefixOf name then bash
  else raw

def auto : Text := "auto"

/-- The mode with a name, or of the parent process; without a name it is raw. -/
def select (name : Option Text) (parent : Option Text) : Except ConfigurationError ShellMode :=
  match name with
  | none => .ok raw
  | some name =>
    if name = auto then .ok (parent.elim raw ofProcess)
    else if name = Text.ofString "raw" ∨ name = Text.ofString "none" then .ok raw
    else if name = Text.ofString "zsh" then .ok zsh
    else if name = Text.ofString "bash" then .ok bash
    else .error (.unknownShellMode name)

end ShellMode

end ShellPrompt
