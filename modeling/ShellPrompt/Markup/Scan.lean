import ShellPrompt.Markup.Error
/-!
Scanning markup. A scan takes the markup that is left and answers what it read and what is then
left. A place in the markup is written as the markup from there on, so what a scan says does not
depend on what stands before.
-/

set_option autoImplicit false

namespace ShellPrompt

structure ScanError where
  rest : Text
  fault : MarkupFault
deriving DecidableEq

abbrev Scan (α : Type) := Except ScanError (α × Text)

end ShellPrompt
