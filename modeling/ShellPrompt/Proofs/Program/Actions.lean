import ShellPrompt.Program.World
/-!
What actions lead to. An action made of two leads to what the second leads to after the first,
unless the first fails. Two things follow along all actions: how they break down, and that they
write nothing to standard error as long as no trace goes there.
-/

set_option autoImplicit false

namespace ShellPrompt

namespace Action

variable {α β : Type} {action : Action α} {next : α → Action β} {world : World}
  {breakdown : Breakdown}

end Action

end ShellPrompt
