import ShellPrompt.Text.Quoted
/-!
Why an operation on a file or directory fails, with the number and words of the system.
-/

set_option autoImplicit false

namespace ShellPrompt

inductive Refusal where
  | missing | alreadyExists | notADirectory | isADirectory
deriving DecidableEq

namespace Refusal

def number : Refusal → Nat
  | missing => 2
  | alreadyExists => 17
  | notADirectory => 20
  | isADirectory => 21

def words : Refusal → Text
  | missing => "No such file or directory"
  | alreadyExists => "File exists"
  | notADirectory => "Not a directory"
  | isADirectory => "Is a directory"

end Refusal

structure OsError where
  refusal : Refusal
  path : Text
deriving DecidableEq

def OsError.message (error : OsError) : Text :=
  Text.concat ["[Errno ", Text.decimal error.refusal.number, "] ", error.refusal.words, ": ",
    error.path.quoted]

end ShellPrompt
