import ShellPrompt.Digest.Sha1
import ShellPrompt.Environment
import ShellPrompt.Palette.Pick
import ShellPrompt.Text.Integer
import ShellPrompt.Text.Slice
import ShellPrompt.Trace.Entry
/-!
The color cache: one file for each repository root, named by the digest of the root's path and
holding the root's palette index. The time of a file says when its root was last used; it orders
the history, and the files used longest ago are removed first.
-/

set_option autoImplicit false

namespace ShellPrompt

/-- A directory of colors, and how many files it keeps; a negative number counts from the end. -/
structure ColorCache where
  directory : Path
  capacity : Int

namespace ColorCache

def defaultCapacity : Int := 10

/-- The digest of the path of a place, which is taken of the path's bytes. -/
def digest? (place : Location) : Option Text :=
  (Utf8.encode? (Path.ofLocation place).written).map Sha1.hexDigest

def fileName (environment : Environment) (root : Text) : Except Breakdown Text :=
  match environment.lookUp (Path.ofText root) with
  | .error breakdown => .error breakdown
  | .ok place =>
    match digest? place with
    | none => .error .surrogateInPath
    | some name => .ok name

/-- The palette index that a text writes, if it writes one. -/
def indexOf? (contents : Text) : Option Nat :=
  match contents.trim.integer? with
  | none => none
  | some i => if 0 ≤ i ∧ i < Palette.size then some i.toNat else none

/-- The palette index in a file; none if there is no file, no text or no index. -/
def read? (tree : Tree) (place : Location) (path : Path) : Option Nat :=
  match tree.readBytes place path with
  | .error _ => none
  | .ok bytes => (fileText? bytes).bind indexOf?

def precedes (a b : Text × Int) : Bool :=
  b.2 < a.2 || (b.2 == a.2 && Text.le a.1 b.1)

def filesAt (tree : Tree) (location : Location) : List (Text × Int) :=
  (tree.childNames location).filterMap fun name =>
    match tree.get? (location ++ [name]) with
    | some (.file _ time) => some (name, time)
    | _ => none

def names (cache : ColorCache) (place : Location) (tree : Tree) :
    Except ConfigurationError (List Text) :=
  let refused (refusal : Refusal) : ConfigurationError :=
    .cacheUnreadable cache.directory.written ⟨refusal, cache.directory.written⟩
  match tree.locate place cache.directory with
  | .error refusal => .error (refused refusal)
  | .ok location =>
    match tree.get? location with
    | none => .error (refused .missing)
    | some (.file _ _) => .error (refused .notADirectory)
    | some .directory => .ok (((filesAt tree location).mergeSort precedes).map Prod.fst)

def filePath (cache : ColorCache) (name : Text) : Path :=
  cache.directory.child name

def history (cache : ColorCache) (place : Location) (tree : Tree) :
    Except ConfigurationError (List Nat) :=
  (cache.names place tree).map fun names =>
    upTo cache.capacity (names.filterMap fun name => read? tree place (cache.filePath name))

def removeFiles (cache : ColorCache) (place : Location) (names : List Text) (tree : Tree) : Tree :=
  names.foldl
    (fun tree name =>
      match tree.locate place (cache.filePath name) with
      | .error _ => tree
      | .ok location => tree.remove location)
    tree

def evict (cache : ColorCache) (place : Location) (tree : Tree) :
    Except ConfigurationError (List TraceEntry) × Tree :=
  match cache.names place tree with
  | .error e => (.error e, tree)
  | .ok names =>
    let old := startingAt cache.capacity names
    (.ok (old.map fun name => ⟨"evict", name, none⟩), cache.removeFiles place old tree)

/-- What a question to the cache leads to: an answer, the tree after it, and what it notes. -/
structure Outcome where
  answer : Except Failure Nat
  tree : Tree
  notes : List TraceEntry

def refused (cache : ColorCache) (path : Path) (refusal : Refusal) : Failure :=
  .configuration (.cacheRefused cache.directory.written ⟨refusal, path.written⟩)

/-- Marks a root's file as used at a time, and answers the index that was read from it. -/
def renew (cache : ColorCache) (place : Location) (root : Text) (path : Path) (index : Nat)
    (time : Int) (tree : Tree) : Outcome :=
  match tree.touch place path time with
  | .error refusal => ⟨.error (cache.refused path refusal), tree, []⟩
  | .ok tree => ⟨.ok index, tree, [⟨"cached", root, some (.integer index)⟩]⟩

/-- Picks an index for a root, writes it to the root's file, and removes the oldest files. -/
def assign (cache : ColorCache) (place : Location) (root : Text) (path : Path) (time : Int)
    (tree : Tree) : Outcome :=
  match cache.history place tree with
  | .error e => ⟨.error (.configuration e), tree, []⟩
  | .ok history =>
    let index := Palette.pick (history.map Int.ofNat)
    let contents := Utf8.encode (Nat.toDigits 10 index ++ ['\n'])
    match tree.writeBytes place path contents time with
    | .error refusal => ⟨.error (cache.refused path refusal), tree, []⟩
    | .ok tree =>
      let note : TraceEntry := ⟨"assign", root, some (.integer index)⟩
      match cache.evict place tree with
      | (.error e, tree) => ⟨.error (.configuration e), tree, [note]⟩
      | (.ok notes, tree) => ⟨.ok index, tree, note :: notes⟩

def colorIndex (cache : ColorCache) (environment : Environment) (root : Text) (time : Int)
    (tree : Tree) : Outcome :=
  match fileName environment root with
  | .error breakdown => ⟨.error (.breakdown breakdown), tree, []⟩
  | .ok name =>
    let path := cache.filePath name
    match read? tree environment.directory path with
    | some index => cache.renew environment.directory root path index time tree
    | none => cache.assign environment.directory root path time tree

end ColorCache

end ShellPrompt
