import ShellPrompt.CommandLine.Basic
/-!
Command lines: arguments under names of their own, and what a list of words gives to each. The
flags come first; the first word that is not like a flag ends them, and so do two dashes alone.
-/

set_option autoImplicit false

namespace ShellPrompt

/-- Something declared as an argument; what is none is kept as reports show it. -/
inductive Declaration (α : Type) where
  | argument (argument : Argument α)
  | other (shown : Text)

/-- A usage text, and arguments under their keys in the order of declaration. -/
structure CommandLine (α : Type) where
  usage : Text
  arguments : List (Text × Argument α)

namespace CommandLine

variable {α : Type}

/--
The arguments that are declared, unless one of them is none, two take the rest, or a flag has a
name that was seen before.
-/
def collect : List Text → Bool → List (Text × Declaration α) →
    Except ConfigurationError (List (Text × Argument α))
  | _, _, [] => .ok []
  | _, _, (_, .other shown) :: _ => .error (.notAnArgument shown)
  | seen, hasRest, (key, .argument .rest) :: declarations =>
    if hasRest then .error .severalAnonymous
    else (collect seen true declarations).map ((key, .rest) :: ·)
  | seen, hasRest, (key, .argument (.flag flag)) :: declarations =>
    match flag.names.find? seen.contains with
    | some name => .error (.duplicatedFlag name)
    | none =>
      (collect (seen ++ flag.names) hasRest declarations).map ((key, .flag flag) :: ·)

def ofDeclarations (usage : Text) (declarations : List (Text × Declaration α)) :
    Except ConfigurationError (CommandLine α) :=
  (collect [] false declarations).map fun arguments => ⟨usage, arguments⟩

def flag? (line : CommandLine α) (name : Text) : Option (Text × Flag α) :=
  line.arguments.findSome? fun
    | (key, .flag flag) => if name ∈ flag.names then some (key, flag) else none
    | (_, .rest) => none

def takesRest (line : CommandLine α) : Bool :=
  line.arguments.any fun
    | (_, .rest) => true
    | (_, .flag _) => false

def isFlagLike (word : Text) : Bool :=
  match word with
  | c :: _ :: _ => c = CodePoint.ofChar '-'
  | _ => false

def endOfFlags : Text := ['-', '-']

/-- The flags that occur, each with the value that it is given, and what is left over. -/
structure Reading (α : Type) where
  occurrences : List (Text × Value α)
  rest : List Text

def Reading.cons (key : Text) (value : Value α) (reading : Reading α) : Reading α :=
  { reading with occurrences := (key, value) :: reading.occurrences }

def read (line : CommandLine α) : List Text → Except ConfigurationError (Reading α)
  | [] => .ok ⟨[], []⟩
  | word :: words =>
    if !isFlagLike word then .ok ⟨[], word :: words⟩
    else if word = endOfFlags then .ok ⟨[], words⟩
    else
      match line.flag? word with
      | none => .error (.unrecognizedFlag word line.usage)
      | some (key, flag) =>
        if flag.isSwitch then (read line words).map (Reading.cons key (.truth true))
        else
          match words with
          | [] => .error (.missingValue word line.usage)
          | value :: words =>
            if isFlagLike value then .error (.missingValue word line.usage)
            else (read line words).map (Reading.cons key (.text value))

def Reading.last? (reading : Reading α) (key : Text) : Option (Value α) :=
  (reading.occurrences.reverse.find? fun (k, _) => k = key).map Prod.snd

def Reading.value (reading : Reading α) (environment : Environment) (key : Text) :
    Argument α → Value α
  | .flag flag => (reading.last? key).getD (flag.initial environment)
  | .rest => .rest reading.rest

def parse (line : CommandLine α) (environment : Environment) (words : List Text) :
    Except ConfigurationError (List (Text × Value α)) := do
  let reading ← line.read words
  if !line.takesRest && !reading.rest.isEmpty then
    throw (.unexpectedArguments reading.rest line.usage)
  return line.arguments.map fun (key, argument) => (key, reading.value environment key argument)

end CommandLine

end ShellPrompt
