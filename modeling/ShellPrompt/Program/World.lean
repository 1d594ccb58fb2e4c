import ShellPrompt.Environment
import ShellPrompt.Trace.Entry
import ShellPrompt.Trace.Sink
/-!
What the program acts on: a tree of files, a clock that moves on at each change of a file, a trace,
and what was written to standard output and standard error. An action that fails keeps what it
changed before.
-/

set_option autoImplicit false

namespace ShellPrompt

/-- Files and their clock, the place of the trace if there is one, and what was written. -/
structure World where
  tree : Tree
  clock : Int
  sink : Option TraceSink
  output : Text
  errors : Text
deriving DecidableEq

namespace World

def ofTree (tree : Tree) (clock : Int) : World :=
  ⟨tree, clock, none, [], []⟩

def print (text : Text) (world : World) : World :=
  { world with output := world.output ++ text }

def report (text : Text) (world : World) : World :=
  { world with errors := world.errors ++ text }

/--
Adds text to the file at a location. Text without bytes is not added; that a stream complains of it
is left out here, as all errors of streams are.
-/
def extend (location : Location) (text : Text) (world : World) : World :=
  match Utf8.encode? text with
  | none => world
  | some bytes =>
    { world with tree := world.tree.append location bytes world.clock, clock := world.clock + 1 }

def note (entry : TraceEntry) (world : World) : World :=
  match world.sink with
  | none => world
  | some .standardError => world.report entry.line
  | some (.file _ location) => world.extend location entry.line

def traceToFile (directory : Location) (target : Text) (world : World) :
    Except ConfigurationError World :=
  match world.tree.openToAppend directory target world.clock with
  | .error refusal => .error (.traceRefused target ⟨refusal, target⟩)
  | .ok (location, tree) =>
    .ok { world with tree, clock := world.clock + 1, sink := some (.file target location) }

def endTrace (world : World) : World :=
  { world with sink := none }

end World

/-- What changes the world and may fail. -/
abbrev Action := ExceptT Failure (StateM World)

namespace Action

variable {α : Type}

def outcome (action : Action α) (world : World) : Except Failure α × World :=
  action.run.run world

def print (text : Text) : Action Unit :=
  modify (World.print text)

def note (entry : TraceEntry) : Action Unit :=
  modify (World.note entry)

def notes (entries : List TraceEntry) : Action Unit :=
  modify fun world => entries.foldl (fun world entry => world.note entry) world

def ofExcept (result : Except Failure α) : Action α :=
  ExceptT.mk (pure result)

/-- The action that has this result, where an error is one of the configuration. -/
def configured (result : Except ConfigurationError α) : Action α :=
  ofExcept (result.mapError .configuration)

def unbroken (result : Except Breakdown α) : Action α :=
  ofExcept (result.mapError .breakdown)

/-- An action with a last step that is taken even if it fails. -/
def finally' (action : Action α) (last : World → World) : Action α :=
  ExceptT.mk do
    let result ← action.run
    modify last
    return result

end Action

end ShellPrompt
