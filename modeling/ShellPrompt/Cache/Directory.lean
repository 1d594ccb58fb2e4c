import ShellPrompt.Environment
/-!
Where the color cache is kept: below the user's cache directory, which an environment variable
may move.
-/

set_option autoImplicit false

namespace ShellPrompt

namespace CacheDirectory

def firstGiven? (values : List (Option Text)) : Option Text :=
  values.findSome? fun value => value.filter fun t => !t.isEmpty

def choose (environment : Environment) (description : Text) (values : List (Option Text)) :
    Except ConfigurationError Path :=
  match firstGiven? values with
  | none => .error (.directoryUnset description)
  | some value =>
    match environment.expandHome (Path.ofText value) with
    | .error _ => .error (.directoryHomeless description)
    | .ok path => .ok path

def homeDescription : Text := "home directory"

def cacheDescription : Text := "application cache directory (e.g. XDG_CACHE_HOME)"

def path (environment : Environment) : Except Failure Path :=
  match environment.homePath with
  | .error breakdown => .error (.breakdown breakdown)
  | .ok home =>
    match choose environment homeDescription [environment.get? "HOME", some home.written] with
    | .error e => .error (.configuration e)
    | .ok home =>
      match choose environment cacheDescription
        [environment.get? "XDG_CACHE_HOME", some (home.child ".cache").written] with
      | .error e => .error (.configuration e)
      | .ok cache => .ok ((cache.child "tinct").child "colors")

/-- Makes sure that a path leads to a directory. What was made before a failure stays. -/
def ensure (directory : Location) (path : Path) (tree : Tree) :
    Except ConfigurationError Unit × Tree :=
  match tree.status directory path with
  | .ok .directory => (.ok (), tree)
  | .ok (.file _ _) => (.error (.notADirectory path.written), tree)
  | .error _ =>
    match tree.makeDirectories directory false path with
    | (.ok (), tree) => (.ok (), tree)
    | (.error cause, tree) => (.error (.directoryRefused path.written cause), tree)

end CacheDirectory

end ShellPrompt
