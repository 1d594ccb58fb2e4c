import ShellPrompt.Storage.OsError
import ShellPrompt.Storage.Path
import ShellPrompt.Text.Utf8
/-!
A tree of files and directories without links, as a list of locations and what is there. Paths are
followed as the system follows them: every name before the last has to be a directory, and `..`
leads to the one above.
-/

set_option autoImplicit false

namespace ShellPrompt

/-- What is at a location; a file has its bytes and the time of its last change. -/
inductive Entry where
  | directory
  | file (bytes : Bytes) (time : Int)
deriving DecidableEq

/-- Locations and what is there, each location once; the root is always a directory. -/
structure Tree where
  entries : List (Location × Entry)
  nodup_locations : (entries.map Prod.fst).Nodup
deriving DecidableEq

namespace Tree

def empty : Tree := ⟨[], List.nodup_nil⟩

def get? (tree : Tree) (location : Location) : Option Entry :=
  if location.isEmpty then some .directory
  else (tree.entries.find? fun (at', _) => at' = location).map Prod.snd

def others (tree : Tree) (location : Location) : List (Location × Entry) :=
  tree.entries.filter fun (at', _) => at' ≠ location

theorem nodup_others (tree : Tree) (location : Location) :
    ((tree.others location).map Prod.fst).Nodup :=
  (List.filter_sublist.map Prod.fst).nodup tree.nodup_locations

theorem nodup_others_append (tree : Tree) (location : Location) (entry : Entry) :
    ((tree.others location ++ [(location, entry)]).map Prod.fst).Nodup := by
  rw [List.map_append, List.nodup_append]
  refine ⟨tree.nodup_others location, by simp, ?_⟩
  intro a ha b hb
  obtain ⟨⟨at', _⟩, hmem, rfl⟩ := List.mem_map.1 ha
  have hne : at' ≠ location := by simpa using (List.mem_filter.1 hmem).2
  have hb : b = location := by simpa using hb
  rw [hb]
  exact hne

def put (tree : Tree) (location : Location) (entry : Entry) : Tree :=
  ⟨tree.others location ++ [(location, entry)], tree.nodup_others_append location entry⟩

def remove (tree : Tree) (location : Location) : Tree :=
  ⟨tree.others location, tree.nodup_others location⟩

theorem find?_others (tree : Tree) {location at' : Location} (h : at' ≠ location) :
    (tree.others location).find? (fun (l, _) => l = at') =
      tree.entries.find? fun (l, _) => l = at' := by
  rw [others, List.find?_filter]
  congr 1
  funext ⟨l, entry⟩
  by_cases hl : l = at'
  · simp [hl, h]
  · simp [hl]

theorem find?_others_self (tree : Tree) (location : Location) :
    (tree.others location).find? (fun (l, _) => l = location) = none := by
  rw [others, List.find?_filter, List.find?_eq_none]
  rintro ⟨l, entry⟩ _
  simp

theorem get?_put (tree : Tree) {location : Location} (h : location ≠ []) (entry : Entry)
    (at' : Location) :
    (tree.put location entry).get? at' = if at' = location then some entry else tree.get? at' := by
  by_cases hroot : at' = []
  · simp [get?, hroot, h.symm]
  by_cases hat : at' = location
  · subst hat
    simp [get?, put, hroot, List.find?_append, tree.find?_others_self]
  · simp [get?, put, hroot, hat, List.find?_append, tree.find?_others hat, Ne.symm hat]

theorem get?_remove (tree : Tree) {location : Location} (h : location ≠ []) (at' : Location) :
    (tree.remove location).get? at' = if at' = location then none else tree.get? at' := by
  by_cases hroot : at' = []
  · simp [get?, hroot, h.symm]
  by_cases hat : at' = location
  · subst hat
    simp [get?, remove, hroot, tree.find?_others_self]
  · simp [get?, remove, hroot, hat, tree.find?_others hat]

/-- The tree with directories at a location and at those above it where nothing is. -/
def putDirectories (tree : Tree) (location : Location) : Tree :=
  location.ancestors.foldr
    (fun at' tree => if (tree.get? at').isSome then tree else tree.put at' .directory) tree

def putFile (tree : Tree) (location : Location) (bytes : Bytes) (time : Int) : Tree :=
  (tree.putDirectories location.dropLast).put location (.file bytes time)

def childNames (tree : Tree) (location : Location) : List Text :=
  tree.entries.filterMap fun (at', _) =>
    if at'.dropLast = location then at'.getLast? else none

def enter (location : Location) (name : Text) : Location :=
  if name = Path.up then location.dropLast
  else if name = Path.here then location
  else location ++ [name]

/-- The place that names lead to, where all but the last must exist and be directories. -/
def walk (tree : Tree) : Location → List Text → Except Refusal Location
  | location, [] => .ok location
  | location, name :: names =>
    match tree.get? location with
    | none => .error .missing
    | some (.file _ _) => .error .notADirectory
    | some .directory => walk tree (enter location name) names

def locate (tree : Tree) (directory : Location) (path : Path) : Except Refusal Location :=
  tree.walk (if path.isAbsolute then [] else directory) path.names

def status (tree : Tree) (directory : Location) (path : Path) : Except Refusal Entry :=
  match tree.locate directory path with
  | .error refusal => .error refusal
  | .ok location =>
    match tree.get? location with
    | none => .error .missing
    | some entry => .ok entry

def exists? (tree : Tree) (directory : Location) (path : Path) : Bool :=
  match tree.status directory path with
  | .ok _ => true
  | .error _ => false

def isDirectory (tree : Tree) (directory : Location) (path : Path) : Bool :=
  match tree.status directory path with
  | .ok .directory => true
  | _ => false

def readBytes (tree : Tree) (directory : Location) (path : Path) : Except Refusal Bytes :=
  match tree.status directory path with
  | .error refusal => .error refusal
  | .ok .directory => .error .isADirectory
  | .ok (.file bytes _) => .ok bytes

def writeBytes (tree : Tree) (directory : Location) (path : Path) (bytes : Bytes) (time : Int) :
    Except Refusal Tree :=
  match tree.locate directory path with
  | .error refusal => .error refusal
  | .ok location =>
    match tree.get? location with
    | some .directory => .error .isADirectory
    | _ => .ok (tree.put location (.file bytes time))

/-- Gives the entry at the end of a path a new time; directories have none here. -/
def touch (tree : Tree) (directory : Location) (path : Path) (time : Int) : Except Refusal Tree :=
  match tree.locate directory path with
  | .error refusal => .error refusal
  | .ok location =>
    match tree.get? location with
    | none => .error .missing
    | some .directory => .ok tree
    | some (.file bytes _) => .ok (tree.put location (.file bytes time))

def makeDirectory (tree : Tree) (directory : Location) (path : Path) : Except Refusal Tree :=
  match tree.locate directory path with
  | .error refusal => .error refusal
  | .ok location =>
    match tree.get? location with
    | some _ => .error .alreadyExists
    | none => .ok (tree.put location .directory)

/--
Makes a directory at the end of a path, and first those above it where nothing is. With `existing`
a directory that is already there will do. What was made before a refusal stays.
-/
def makeDirectories (tree : Tree) (directory : Location) (existing : Bool) (path : Path) :
    Except OsError Unit × Tree :=
  let settle (tree : Tree) (refusal : Refusal) : Except OsError Unit × Tree :=
    if existing && tree.isDirectory directory path then (.ok (), tree)
    else (.error ⟨refusal, path.written⟩, tree)
  match tree.makeDirectory directory path with
  | .ok tree => (.ok (), tree)
  | .error .missing =>
    if _h : path.names = [] then (.error ⟨.missing, path.written⟩, tree)
    else
      match makeDirectories tree directory true path.parent with
      | (.error e, tree) => (.error e, tree)
      | (.ok (), tree) =>
        match tree.makeDirectory directory path with
        | .ok tree => (.ok (), tree)
        | .error refusal => settle tree refusal
  | .error refusal => settle tree refusal
termination_by path.names.length
decreasing_by
  simp only [Path.parent, List.length_dropLast]
  have := List.length_pos_iff.2 _h
  omega

/--
Opens the file that a text names so that it can be added to, and makes it if nothing is there.
A slash at the end of the text asks for a directory, which cannot be added to.
-/
def openToAppend (tree : Tree) (directory : Location) (target : Text) (time : Int) :
    Except Refusal (Location × Tree) :=
  let names := (Text.splitAt '/' target).filter fun name => !name.isEmpty
  let origin := if (Path.ofText target).isAbsolute then [] else directory
  let asksDirectory := target.getLast? = some (CodePoint.ofChar '/')
  let isPlain := names.getLast?.any fun name => name ≠ Path.up && name ≠ Path.here
  match tree.walk origin (if asksDirectory && isPlain then names.dropLast ++ [Path.here] else names)
    with
  | .error refusal => .error refusal
  | .ok location =>
    match tree.get? location with
    | some .directory => .error .isADirectory
    | some (.file _ _) => .ok (location, tree)
    | none => .ok (location, tree.put location (.file [] time))

def append (tree : Tree) (location : Location) (bytes : Bytes) (time : Int) : Tree :=
  match tree.get? location with
  | some (.file before _) => tree.put location (.file (before ++ bytes) time)
  | _ => tree

end Tree

/-- The text of a file: UTF-8 with all line ends made one, or nothing if it is ill-formed. -/
def fileText? (bytes : Bytes) : Option Text :=
  (Utf8.decode? bytes).map Text.unifyLineEnds

end ShellPrompt
