import ShellPrompt.Program.Commands
/-!
A run of the program. It answers a call for help or for the version, or does what a command says;
an error of the user's is reported on standard error.
-/

set_option autoImplicit false

namespace ShellPrompt

inductive ExitStatus where
  | success | failure
deriving DecidableEq

def ExitStatus.code : ExitStatus → Nat
  | success => 0
  | failure => 1

namespace Program

def line (text : Text) : Text :=
  text ++ (['\n'] : Text)

def startTrace (environment : Environment) (options : Options) : Action Unit :=
  match options.trace with
  | some (c :: target) => do
    let world ← get
    set (← Action.configured (world.traceToFile environment.directory (c :: target)))
  | _ => return

def command (invocation : Invocation) (settings : Settings) : List Text → Action Unit
  | [] => throw (.configuration (.noCommand usage))
  | name :: arguments =>
    match Command.ofName? name with
    | none => throw (.configuration (.unknownCommand name usage))
    | some command => do
      Action.note ⟨"command", name, some (.list (arguments.map .text))⟩
      command.run invocation settings arguments

def perform (invocation : Invocation) : Action Unit := do
  let options ← Action.configured (Options.ofWords invocation.environment invocation.words)
  if options.help then Action.print (line usage)
  else if options.version then Action.print (line version)
  else
    let settings ← Action.configured (Settings.ofOptions invocation options)
    startTrace invocation.environment options
    (command invocation settings options.arguments).finally' World.endTrace

def reportOf (message : Text) : Text :=
  line (Text.concat [name, ": ", message])

/-- The status of a finished run, after a failure that can be reported was. -/
def settle (world : World) : Except Failure Unit → Except Breakdown ExitStatus × World
  | .ok () => (.ok .success, world)
  | .error (.configuration e) => (.ok .failure, world.report (reportOf e.message))
  | .error (.markup e) => (.ok .failure, world.report (reportOf e.message))
  | .error (.breakdown e) => (.error e, world)

/-- A run of the program: its status, unless it breaks down, and the world after it. -/
def run (invocation : Invocation) (world : World) : Except Breakdown ExitStatus × World :=
  let (result, world) := (perform invocation).outcome world
  settle world result

end Program

end ShellPrompt
