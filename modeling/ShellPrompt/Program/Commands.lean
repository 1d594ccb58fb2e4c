import ShellPrompt.Cache.Colors
import ShellPrompt.Cache.Directory
import ShellPrompt.Program.Invocation
import ShellPrompt.Program.Options
import ShellPrompt.Program.World
import ShellPrompt.Prompt.Compose
import ShellPrompt.Prompt.Directory
import ShellPrompt.Render.Rendering
import ShellPrompt.Repository
import ShellPrompt.TerminalWidth
/-!
The commands: render markup, render the prompt of a directory, print the color of a repository,
and show the palette.
-/

set_option autoImplicit false

namespace ShellPrompt

structure Settings where
  mode : ShellMode
  width : Int
  choices : Choices

namespace Settings

def chosen (seed : Option Text) (unseeded : Choices) : Except ConfigurationError Choices :=
  ((Setting.ofText? seed).integer? "Seed").map fun seed => seed.elim unseeded Choices.seeded

def ofOptions (invocation : Invocation) (options : Options) :
    Except ConfigurationError Settings := do
  let mode ← ShellMode.select options.shell invocation.parent
  let columns := invocation.environment.get? "COLUMNS"
  let width ← TerminalWidth.resolve (Setting.ofText? options.width) columns invocation.terminal
  let choices ← chosen options.seed invocation.choices
  return ⟨mode, width, choices⟩

end Settings

inductive Command where
  | render | prompt | color | palette
deriving DecidableEq

namespace Command

def ofName? (name : Text) : Option Command :=
  if name = Text.ofString "render" then some render
  else if name = Text.ofString "prompt" then some prompt
  else if name = Text.ofString "color" then some color
  else if name = Text.ofString "palette" then some palette
  else none

/-- Writes a rendering to standard output, and what happens during it to the trace. -/
def draw (settings : Settings) (markup : Text) : Action Unit := do
  let rendering := Rendering.ofMarkup settings.width settings.choices markup
  Action.print (rendering.output settings.mode)
  Action.notes (rendering.events.map (Event.entry settings.mode))
  match rendering.error with
  | none => return
  | some e => throw (.markup e)

/-- The directory that a command is about: its one argument, or where the program runs. -/
def directory (environment : Environment) : List Text → Action Location
  | [] => return environment.directory
  | [argument] => Action.unbroken (environment.lookUp (Path.ofText argument))
  | arguments => throw (.configuration (.tooManyArguments arguments))

def repository (environment : Environment) (directory : Location) : Action (Option Location) := do
  let tree := (← get).tree
  Action.unbroken
    (Repository.findRoot environment tree (Path.ofLocation directory) Repository.markers)

def colorCache (environment : Environment) : Action ColorCache := do
  let path ← Action.ofExcept (CacheDirectory.path environment)
  let (result, tree) := CacheDirectory.ensure environment.directory path (← get).tree
  modify fun world => { world with tree }
  Action.configured result
  return ⟨path, ColorCache.defaultCapacity⟩

def colorIndex (environment : Environment) (root : Location) : Action Nat := do
  let cache ← colorCache environment
  let world ← get
  let outcome :=
    cache.colorIndex environment (Path.ofLocation root).written world.clock world.tree
  set { world with tree := outcome.tree, clock := world.clock + 1 }
  Action.notes outcome.notes
  Action.ofExcept outcome.answer

def promptInfo (invocation : Invocation) (directory : Location) (root : Option Location)
    (accent : Option PaletteEntry) : Action Prompt.Info := do
  let user ← Action.unbroken invocation.userName
  let home ← Action.unbroken invocation.environment.homePath
  let tree := (← get).tree
  let branch ←
    match root with
    | none => pure none
    | some root =>
      Action.unbroken (Repository.branch tree invocation.environment.directory
        (Path.ofLocation root))
  return {
    user
    host := invocation.hostName
    directory :=
      Prompt.directory (Path.ofLocation directory) (some home) (root.map Path.ofLocation)
    time := invocation.time.shown
    branch
    accent }

def runPrompt (invocation : Invocation) (settings : Settings) (arguments : List Text) :
    Action Unit := do
  let directory ← directory invocation.environment arguments
  let root ← repository invocation.environment directory
  let accent ←
    match root with
    | none => pure none
    | some root => do
      let index ← colorIndex invocation.environment root
      pure (Palette.entry? index)
  let info ← promptInfo invocation directory root accent
  Action.note ⟨"prompt", info.shown, none⟩
  draw settings (Prompt.compose info)

def runColor (invocation : Invocation) (arguments : List Text) : Action Unit := do
  let directory ← directory invocation.environment arguments
  match ← repository invocation.environment directory with
  | none => throw (.configuration (.notInRepository (Path.ofLocation directory).written))
  | some root =>
    let index ← colorIndex invocation.environment root
    Action.print (Text.decimal index ++ (['\n'] : Text))

def run (invocation : Invocation) (settings : Settings) (arguments : List Text) :
    Command → Action Unit
  | render =>
    match arguments with
    | [markup] => draw settings markup
    | _ => throw (.configuration .renderArguments)
  | prompt => runPrompt invocation settings arguments
  | color => runColor invocation arguments
  | palette =>
    if arguments.isEmpty then draw settings Prompt.paletteMarkup
    else throw (.configuration .paletteArguments)

end Command

end ShellPrompt
