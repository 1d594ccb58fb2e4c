import ShellPrompt.Text.Basic
/-!
Paths as they are written. A path is absolute or relative, and is a sequence of names without
empty ones and dots; `..` is kept, since only resolving a path removes it.
-/

set_option autoImplicit false

namespace ShellPrompt

/-- Where a path starts. Two slashes at the front are kept apart from one, three or more are not. -/
inductive Anchor where
  | relative | root | doubleRoot
deriving DecidableEq

def Anchor.written : Anchor → Text
  | relative => []
  | root => ['/']
  | doubleRoot => ['/', '/']

structure Path where
  anchor : Anchor
  names : List Text
deriving DecidableEq

/-- The absolute place of a file or directory: names from the root down, none of them `..`. -/
abbrev Location := List Text

namespace Path

def up : Text := ['.', '.']

def here : Text := ['.']

/-- The names between slashes that say something: all but the empty one and the dot. -/
def namesOf (t : Text) : List Text :=
  (Text.splitAt '/' t).filter fun name => !(name.isEmpty || name = here)

def anchorOf (t : Text) : Anchor :=
  let slashes := (t.takeWhile fun (c : CodePoint) => c = '/').length
  if slashes = 0 then .relative else if slashes = 2 then .doubleRoot else .root

def ofText (t : Text) : Path := ⟨anchorOf t, namesOf t⟩

def ofLocation (location : Location) : Path := ⟨.root, location⟩

def written (path : Path) : Text :=
  if path.names.isEmpty && path.anchor = .relative then ['.']
  else path.anchor.written ++ Text.join ['/'] path.names

def isAbsolute (path : Path) : Bool :=
  path.anchor ≠ .relative

def join (path next : Path) : Path :=
  if next.isAbsolute then next else ⟨path.anchor, path.names ++ next.names⟩

def child (path : Path) (name : Text) : Path :=
  path.join (ofText name)

def parent (path : Path) : Path :=
  { path with names := path.names.dropLast }

def name (path : Path) : Text :=
  path.names.getLast?.getD []

/-- Whether a name has a null character in it, so that no file can be opened there. -/
def hasNull (path : Path) : Bool :=
  path.names.any fun name => name.contains (CodePoint.ofNat 0)

def relativeTo? (path base : Path) : Option Path :=
  if path.anchor = base.anchor ∧ base.names.isPrefixOf path.names then
    some ⟨.relative, path.names.drop base.names.length⟩
  else none

/-- The place that names lead to from another; `..` goes back one name, and stays at the root. -/
def follow (location : Location) (names : List Text) : Location :=
  names.foldl (fun at' name => if name = up then at'.dropLast else at' ++ [name]) location

def resolve (directory : Location) (path : Path) : Location :=
  follow (if path.isAbsolute then [] else directory) path.names

end Path

namespace Location

def ancestors (location : Location) : List Location :=
  (List.range (location.length + 1)).reverse.map location.take

end Location

end ShellPrompt
