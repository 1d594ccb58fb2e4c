import ShellPrompt.CommandLine.Parsing
import ShellPrompt.Random.Choices
/-!
What one run of the program is given, and what it knows of the user, the host and the time.
-/

set_option autoImplicit false

namespace ShellPrompt

structure TimeOfDay where
  hour : Nat
  minute : Nat
  second : Nat
deriving DecidableEq

def TimeOfDay.shown (time : TimeOfDay) : Text :=
  let twoDigits (n : Nat) : Text :=
    if n < 10 then CodePoint.ofChar '0' :: Text.decimal n else Text.decimal n
  Text.join [':'] [twoDigits time.hour, twoDigits time.minute, twoDigits time.second]

/--
The words of the command line after the program's name, and all else that a run is given: the name
of the parent process, what the terminal answers when it is asked for its size, the name of the
account if the system knows one, that of the host, and the choices that are made where no seed is
given.
-/
structure Invocation where
  words : List Text
  environment : Environment
  parent : Option Text
  terminal : Text
  account : Option Text
  host : Text
  time : TimeOfDay
  choices : Choices

namespace Invocation

def userVariables : List Text := ["LOGNAME", "USER", "LNAME", "USERNAME"]

/-- The user's name: the first of the variables that says it, or the account's name. -/
def userName (invocation : Invocation) : Except Breakdown Text :=
  match (userVariables.findSome? invocation.environment.value?).or invocation.account with
  | some name => .ok name
  | none => .error .accountUnknown

def hostName (invocation : Invocation) : Text :=
  invocation.host.takeWhile fun (c : CodePoint) => c ≠ '.'

end Invocation

end ShellPrompt
