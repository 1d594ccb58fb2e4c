import ShellPrompt.Environment
/-!
The arguments of a command line. A flag has one name or two, and is followed by a value or is a
switch that says all by being there. What is left over after the flags goes to one argument that
has no name.
-/

set_option autoImplicit false

namespace ShellPrompt

/-- A flag: its names, its value where nothing gives one, and the variable that may give one. -/
structure Flag (α : Type) where
  names : List Text
  isSwitch : Bool
  default : α
  source : Option Text
deriving DecidableEq

inductive Argument (α : Type) where
  | flag (flag : Flag α)
  | rest
deriving DecidableEq

inductive Value (α : Type) where
  | fallback (value : α)
  | text (value : Text)
  | truth (value : Bool)
  | rest (values : List Text)
deriving DecidableEq

namespace Flag

variable {α : Type}

def dashes (name : Text) : Nat :=
  (name.takeWhile fun (c : CodePoint) => c = '-').length

/-- One dash or two, and something after them. -/
def isName (name : Text) : Bool :=
  1 ≤ dashes name && dashes name ≤ 2 && dashes name < name.length

def isLong (name : Text) : Bool :=
  2 ≤ dashes name

/-- Refuses names that are none, and two names that are both long or both short. -/
def checkNames (names : List Text) : Except ConfigurationError Unit :=
  match names.find? fun name => !isName name with
  | some name => .error (.invalidFlag name)
  | none =>
    match names with
    | [first, second] =>
      if isLong first = isLong second then .error (.mismatchedFlags first second) else .ok ()
    | _ => .ok ()

def ofNames (names : List Text) (isSwitch : Bool) (default : α) (source : Option Text) :
    Except ConfigurationError (Flag α) :=
  (checkNames names).map fun _ => ⟨names, isSwitch, default, source⟩

/-- The texts that turn a switch on, in any case of letters. -/
def affirmatives : List Text := ["1", "true", "yes", "on"]

/-- The value of a flag that does not occur: its variable's unless that is unset or empty. -/
def initial (environment : Environment) (flag : Flag α) : Value α :=
  match flag.source.bind environment.value? with
  | none => .fallback flag.default
  | some text => if flag.isSwitch then .truth (affirmatives.contains text.lower) else .text text

end Flag

namespace Argument

variable {α : Type}

def names : Argument α → List Text
  | flag f => f.names
  | rest => []

end Argument

end ShellPrompt
