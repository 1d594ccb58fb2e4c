import ShellPrompt.Storage.Path
/-!
The directory as a prompt shows it: below the repository by the repository's name, below the home
directory by a tilde, and otherwise in full.
-/

set_option autoImplicit false

namespace ShellPrompt

namespace Prompt

def abbreviated (name : Text) (relative : Path) : Text :=
  if relative.names.isEmpty then name else name ++ (['/'] : Text) ++ relative.written

/-- The directory relative to the repository's root, else to the home directory, else in full. -/
def directory (path : Path) (home root : Option Path) : Text :=
  match root.bind fun root => (path.relativeTo? root).map (abbreviated root.name) with
  | some shown => shown
  | none =>
    match home.bind fun home => (path.relativeTo? home).map (abbreviated ['~']) with
    | some shown => shown
    | none => path.written

end Prompt

end ShellPrompt
