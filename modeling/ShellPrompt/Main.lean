import Std.Time.Zoned
import ShellPrompt.Program.Run
/-!
The command line. It passes on the words, the variables that the program asks for, the time, and
what the system says of the host and the parent process; it prints what the run wrote. Of the file
system it shows the program the way to the directory it works in and to those that the words name,
with the repositories on the way. The files that a run makes are not kept, so that every run starts
with an empty color cache, and the terminal does not say how wide it is.
-/

set_option autoImplicit false

namespace ShellPrompt

namespace Main

def variableNames : List String :=
  ["HOME", "XDG_CACHE_HOME", "COLUMNS", "TINCT_SHELL", "TINCT_WIDTH", "TINCT_SEED", "TINCT_TRACE",
    "LOGNAME", "USER", "LNAME", "USERNAME"]

def assignments : IO (List (Text × Text)) :=
  variableNames.filterMapM fun name => do
    let value? ← IO.getEnv name
    return value?.map fun value => (Text.ofString name, Text.ofString value)

def systemText? (path : String) : IO (Option Text) := do
  try
    let contents ← IO.FS.readFile path
    return some (Text.ofString contents).trim
  catch _ => return none

def parentNumber? (status : Text) : Option Text :=
  (Text.splitAt ' ' (((Text.splitAt ')' status).getLast?).getD []))[2]?

def parent : IO (Option Text) := do
  let status? ← systemText? "/proc/self/stat"
  match (status?.bind parentNumber?).bind Text.toString? with
  | none => return none
  | some number => systemText? ("/proc/" ++ number ++ "/comm")

def timeOfDay : IO TimeOfDay := do
  let now ← Std.Time.PlainTime.now
  return ⟨now.hour.val.toNat, now.minute.val.toNat, now.second.val.toNat⟩

def directory : IO Location := do
  let path? ← IO.getEnv "PWD"
  return Path.resolve [] (Path.ofText (path?.getD "/"))

def invocation (words : List String) : IO Invocation := do
  let environment : Environment := ⟨← assignments, ← directory, []⟩
  let host? ← systemText? "/proc/sys/kernel/hostname"
  let seed ← IO.rand 0 0xFFFFFFFF
  return {
    words := words.map Text.ofString
    environment
    parent := ← parent
    terminal := []
    account := some "user"
    host := host?.getD "localhost"
    time := ← timeOfDay
    choices := Choices.seeded seed }

/-- What is at a place, if anything is: a directory is what cannot be read for being one. -/
def look (place : Location) : IO (Option Entry) := do
  match (Path.ofLocation place).written.toString? with
  | none => return none
  | some path =>
    try
      let bytes ← IO.FS.readBinFile path
      return some (.file bytes.toList 0)
    catch e =>
      match e with
      | .inappropriateType _ code _ => return if code = 21 then some .directory else none
      | _ => return none

def lookAt (tree : Tree) (places : List Location) : IO Tree :=
  places.foldlM
    (fun tree place => do
      match ← look place with
      | some entry => return if place.isEmpty then tree else tree.put place entry
      | none => return tree)
    tree

/-- The places where a repository may begin that a run with these words is about. -/
def starts (invocation : Invocation) : List Location :=
  let named := invocation.words.filterMap fun word =>
    (invocation.environment.lookUp (Path.ofText word)).toOption
  (invocation.environment.directory :: named).flatMap Location.ancestors

/-- The places with what a run looks for: markers, and the file that says what is checked out. -/
def tree (invocation : Invocation) : IO Tree := do
  let directory := invocation.environment.directory
  let places := starts invocation
  let markers := places.flatMap fun place => Repository.markers.map fun name => place ++ [name]
  let tree ← lookAt .empty (places ++ markers)
  let heads := places.filterMap fun place =>
    match Repository.gitDirectory tree directory (Path.ofLocation place) with
    | .ok (some git) => some ((git.child Repository.headName).resolve directory)
    | _ => none
  lookAt tree (heads.flatMap Location.ancestors)

def legible (text : Text) : List Char :=
  text.flatMap fun c => c.toChar?.elim ('\\' :: 'u' :: Nat.toDigits 16 c.val) fun d => [d]

def put (stream : IO.FS.Stream) (bytes : Bytes) : IO Unit := do
  stream.write ⟨bytes.toArray⟩
  stream.flush

end Main

end ShellPrompt

open ShellPrompt in
/-- Runs the program and prints what it wrote. Output that has no bytes is not printed. -/
def main (words : List String) : IO UInt32 := do
  let invocation ← Main.invocation words
  let (status, world) := Program.run invocation (.ofTree (← Main.tree invocation) 0)
  let output? := Utf8.encode? world.output
  Main.put (← IO.getStdout) (output?.getD [])
  Main.put (← IO.getStderr) (Utf8.encode (Main.legible world.errors))
  match output?, status with
  | some _, .ok status => return UInt32.ofNat status.code
  | _, _ => return 1
