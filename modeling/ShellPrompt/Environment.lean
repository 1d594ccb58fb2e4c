import ShellPrompt.Failure
import ShellPrompt.Storage.Tree
/-!
What a process is given: environment variables and a working directory. The home directory is a
variable; a path that begins with `~` begins there. Variables, homes and the working directory come
from the system, so they hold no null characters, and of the surrogates only those that stand for
stray bytes; a path that someone wrote may hold anything, and is looked up.
-/

set_option autoImplicit false

namespace ShellPrompt

namespace Path

/-- Why the system cannot be asked about a name: it has no bytes, or they end before the name. -/
def nameFault? (name : Text) : Option Breakdown :=
  if name.any fun c => c.isSurrogate && !c.isStrayByte then some .surrogateInPath
  else if name.contains (CodePoint.ofNat 0) then some .nullInPath
  else none

def fault? (path : Path) : Option Breakdown :=
  path.names.findSome? nameFault?

end Path

/-- What variables are set to, the place the process works in, and the homes of other accounts. -/
structure Environment where
  assignments : List (Text × Text)
  directory : Location
  homes : List (Text × Text)

namespace Environment

def get? (environment : Environment) (name : Text) : Option Text :=
  (environment.assignments.find? fun (n, _) => n = name).map Prod.snd

def value? (environment : Environment) (name : Text) : Option Text :=
  (environment.get? name).filter fun t => !t.isEmpty

/-- The home directory that `~`, or `~` and an account's name, stands for. -/
def home? (environment : Environment) (account : Text) : Option Text :=
  let home? :=
    if account.isEmpty then environment.get? "HOME"
    else (environment.homes.find? fun (n, _) => n = account).map Prod.snd
  home?.map fun home =>
    let home := (home.reverse.dropWhile fun (c : CodePoint) => c = '/').reverse
    if home.isEmpty then ['/'] else home

def expandHome (environment : Environment) (path : Path) : Except Breakdown Path :=
  match path.anchor, path.names with
  | .relative, (c :: account) :: names =>
    if c = '~' then
      match environment.home? account with
      | none => .error .homeUnknown
      | some home =>
        if home.head? = some (CodePoint.ofChar '~') then .error .homeUnknown
        else
          let home := Path.ofText home
          .ok ⟨home.anchor, home.names ++ names⟩
    else .ok path
  | _, _ => .ok path

def homePath (environment : Environment) : Except Breakdown Path :=
  environment.expandHome (Path.ofText "~")

/--
The place of a path that the system gave, or that was looked up before: its names are names that
files can have.
-/
def resolve (environment : Environment) (path : Path) : Except Breakdown Location :=
  (environment.expandHome path).map (Path.resolve environment.directory)

/-- The place of a path that may have any names. The system is asked about them on the way. -/
def lookUp (environment : Environment) (path : Path) : Except Breakdown Location :=
  match environment.expandHome path with
  | .error breakdown => .error breakdown
  | .ok path =>
    match path.fault? with
    | some breakdown => .error breakdown
    | none => .ok (path.resolve environment.directory)

end Environment

end ShellPrompt
