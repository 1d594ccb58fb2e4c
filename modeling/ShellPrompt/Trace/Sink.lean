import ShellPrompt.Storage.Path
/-!
The places that trace lines can go to.
-/

set_option autoImplicit false

namespace ShellPrompt

/-- Standard error, or the file at a location, which is called what the user called it. -/
inductive TraceSink where
  | standardError
  | file (target : Text) (location : Location)
deriving DecidableEq

end ShellPrompt
