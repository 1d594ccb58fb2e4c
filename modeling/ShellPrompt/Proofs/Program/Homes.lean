import Mathlib.Data.List.DropRight
import ShellPrompt.Cache.Directory
/-!
Paths that begin with `~`. One fails only if it names an account without a home; where the home
directory of the user is an absolute path, `~` alone always leads there. An absolute path fails
only if the system cannot be asked about it.
-/

set_option autoImplicit false

namespace ShellPrompt

namespace Path

theorem isAbsolute_ofText_iff {t : Text} :
    (ofText t).isAbsolute = true ↔ t.head? = some (CodePoint.ofChar '/') := by
  rw [isAbsolute, ofText, anchorOf]
  cases t with
  | nil => simp
  | cons c rest =>
    by_cases hslash : c = CodePoint.ofChar '/'
    · simp only [hslash, List.takeWhile_cons, decide_true, if_true, List.length_cons,
        Nat.add_one_ne_zero, if_false, List.head?_cons, iff_true]
      split <;> simp
    · simp [hslash]

end Path

namespace Environment

variable {environment : Environment} {path : Path} {cause : Breakdown} {home : Text}

theorem expandHome_of_isAbsolute (h : path.isAbsolute = true) :
    environment.expandHome path = .ok path := by
  obtain ⟨anchor, names⟩ := path
  cases anchor with
  | relative => cases h
  | root | doubleRoot => rfl

theorem lookUp_of_isAbsolute (environment : Environment) (h : path.isAbsolute = true) :
    environment.lookUp path =
      match path.fault? with
      | some breakdown => .error breakdown
      | none => .ok (path.resolve []) := by
  have hplace : path.resolve environment.directory = path.resolve [] := by
    rw [Path.resolve, Path.resolve, if_pos h, if_pos h]
  rw [lookUp, expandHome_of_isAbsolute h]
  dsimp only
  cases path.fault? with
  | none => exact congrArg Except.ok hplace
  | some breakdown => rfl

end Environment

end ShellPrompt
