import ShellPrompt.Environment
import ShellPrompt.Text.Blank
/-!
Repositories: the nearest directory above a path that a version control system has marked, and the
branch that is checked out there.
-/

set_option autoImplicit false

namespace ShellPrompt

namespace Repository

def markers : List Text := [".git", ".hg", ".svn", ".bzr", "_darcs", ".jj"]

def isMarked (tree : Tree) (directory : Location) (names : List Text) (location : Location) :
    Bool :=
  names.any fun name => tree.exists? directory ((Path.ofLocation location).child name)

def findRoot (environment : Environment) (tree : Tree) (start : Path) (names : List Text) :
    Except Breakdown (Option Location) :=
  (environment.resolve start).map fun location =>
    location.ancestors.find? (isMarked tree environment.directory names)

def gitName : Text := ".git"

def pointerHead : Text := "gitdir:"

def headName : Text := "HEAD"

def referenceHead : Text := "ref:"

def branchHead : Text := "refs/heads/"

def shortLength : Nat := 7

/-- The path that a pointer file of a root gives; a relative one starts from the root. -/
def pointed? (git : Path) (contents : Text) : Option Path :=
  (Text.dropHead? pointerHead contents.trim).map fun rest =>
    git.parent.join (Path.ofText rest.trim)

def gitDirectory (tree : Tree) (directory : Location) (root : Path) :
    Except Breakdown (Option Path) :=
  let git := root.child gitName
  match tree.status directory git with
  | .error _ => .ok none
  | .ok .directory => .ok (some git)
  | .ok (.file bytes _) =>
    match fileText? bytes with
    | none => .error .notUtf8
    | some contents => .ok (pointed? git contents)

/-- What is checked out according to the file that says it: a branch, or a commit in short. -/
def branchOf (head : Text) : Option Text :=
  match Text.dropHead? referenceHead head with
  | some reference => some ((Text.dropHead? branchHead reference.trim).getD reference.trim)
  | none => if head.isEmpty then none else some (head.take shortLength)

def branch (tree : Tree) (directory : Location) (root : Path) :
    Except Breakdown (Option Text) :=
  match gitDirectory tree directory root with
  | .error e => .error e
  | .ok none => .ok none
  | .ok (some git) =>
    if git.hasNull then .error .nullInPath
    else
      match tree.readBytes directory (git.child headName) with
      | .error _ => .ok none
      | .ok bytes =>
        match fileText? bytes with
        | none => .error .notUtf8
        | some head => .ok (branchOf head.trim)

end Repository

end ShellPrompt
