import ShellPrompt.Proofs.Render.Pieces
import ShellPrompt.Proofs.Shell.Marks
/-!
The shell modes write one rendering in different encodings. A rendering is made without a mode;
what zsh and bash receive of it can be read back, to what a bare terminal receives, and what stands
in brackets is exactly its escape sequences (`shell_modes_read_back`).
-/

set_option autoImplicit false

namespace ShellPrompt

/-- What a caller gets of a rendering: the text written, its number of lines, and the error. -/
structure Outcome where
  written : Text
  lines : Nat
  error : Option MarkupError
deriving DecidableEq

def Outcome.ofMarkup (mode : ShellMode) (width : Int) (choices : Choices) (markup : Text) :
    Outcome where
  written := (Rendering.ofMarkup width choices markup).output mode
  lines := (Rendering.ofMarkup width choices markup).final.linesWritten
  error := (Rendering.ofMarkup width choices markup).error

def Brackets.decode? (brackets : Brackets) (t : Text) : Option Text :=
  (brackets.marks? t).map (List.filterMap Mark.char?)

/-- The text outside brackets and the stretches in brackets, or none if that cannot be read. -/
def Brackets.split? (brackets : Brackets) (t : Text) : Option (Text × List Text) :=
  (brackets.marks? t).bind (Mark.split? none)

def Piece.marks : Piece → List Mark
  | escape codes => .opens :: (escapeSequence codes).map .char ++ [.closes]
  | text t _ => t.map .char

section Reading

variable {mode : ShellMode} {brackets : Brackets}

theorem ShellMode.lead_not_mem_escapeSequence (h : mode.brackets? = some brackets)
    (orders : List Order) : brackets.lead ∉ escapeSequence (orders.map Order.code) := by
  intro hlead
  rcases Order.mem_escapeSequence hlead with hlead | ⟨hlow, hhigh⟩
  · cases mode with
    | raw => cases h
    | zsh =>
      cases h
      revert hlead
      decide
    | bash =>
      cases h
      revert hlead
      decide
  · cases mode with
    | raw => cases h
    | zsh =>
      cases h
      exact absurd hlow (by decide)
    | bash =>
      cases h
      exact absurd hhigh (by decide)

theorem Piece.marks?_written_append (h : mode.brackets? = some brackets) {piece : Piece}
    (hordered : piece.IsOrdered) (rest : Text) :
    brackets.marks? (piece.written mode ++ rest) =
      (brackets.marks? rest).map (piece.marks ++ ·) := by
  cases piece with
  | text t literal =>
    rw [written, ShellMode.protect_eq h]
    exact Brackets.marks?_double_append brackets t rest
  | escape codes =>
    obtain ⟨orders, rfl⟩ := hordered
    rw [written, ShellMode.wrap_eq h]
    exact Brackets.marks?_bracketed_append brackets
      (ShellMode.lead_not_mem_escapeSequence h orders) rest

theorem Piece.marks?_flatMap_written (h : mode.brackets? = some brackets) {pieces : List Piece}
    (hordered : ∀ piece ∈ pieces, piece.IsOrdered) :
    brackets.marks? (pieces.flatMap (written mode)) = some (pieces.flatMap marks) := by
  induction pieces with
  | nil => rfl
  | cons piece pieces ih =>
    have hpiece := marks?_written_append h (hordered piece (by simp))
      (pieces.flatMap (written mode))
    have hpieces := ih (fun other hother => hordered other (List.mem_cons_of_mem _ hother))
    rw [List.flatMap_cons, hpiece, hpieces]
    rfl

end Reading

namespace Piece

theorem filterMap_char?_marks (piece : Piece) :
    piece.marks.filterMap Mark.char? = piece.written .raw := by
  cases piece with
  | text t literal => exact Mark.filterMap_char?_map_char t
  | escape codes =>
    have hchars := Mark.filterMap_char?_map_char (escapeSequence codes)
    simp [marks, written, ShellMode.wrap, ShellMode.before, ShellMode.after, List.filterMap_cons,
      List.filterMap_append, hchars]

theorem filterMap_char?_flatMap_marks (pieces : List Piece) :
    (pieces.flatMap marks).filterMap Mark.char? = pieces.flatMap (written .raw) := by
  induction pieces with
  | nil => rfl
  | cons piece pieces ih =>
    rw [List.flatMap_cons, List.filterMap_append, ih, filterMap_char?_marks, List.flatMap_cons]

/-- Outside brackets stand the texts of the pieces, and in brackets their escape sequences. -/
theorem split?_flatMap_marks (pieces : List Piece) :
    Mark.split? none (pieces.flatMap marks) =
      some (pieces.flatMap visible, pieces.filterMap (sequence? .raw)) := by
  induction pieces with
  | nil => rfl
  | cons piece pieces ih =>
    cases piece with
    | text t literal =>
      have hsplit := Mark.split?_chars_append t (pieces.flatMap marks)
      rw [List.flatMap_cons, marks, hsplit, ih]
      rfl
    | escape codes =>
      have hsplit := Mark.split?_bracketed_append (escapeSequence codes) (pieces.flatMap marks)
      rw [List.flatMap_cons, marks, hsplit, ih, List.filterMap_cons, sequence?_escape]
      rfl

end Piece

/--
What a mode with brackets and the raw mode make of the same markup: the same error after as many
lines, texts that differ only in their encoding, and brackets around the escape sequences alone.
-/
structure ReadsBack (mode : ShellMode) (brackets : Brackets) (width : Int) (choices : Choices)
    (markup : Text) : Prop where
  error : (Outcome.ofMarkup mode width choices markup).error =
    (Outcome.ofMarkup .raw width choices markup).error
  lines : (Outcome.ofMarkup mode width choices markup).lines =
    (Outcome.ofMarkup .raw width choices markup).lines
  decoded : brackets.decode? (Outcome.ofMarkup mode width choices markup).written =
    some (Outcome.ofMarkup .raw width choices markup).written
  split : brackets.split? (Outcome.ofMarkup mode width choices markup).written =
    some ((Rendering.ofMarkup width choices markup).pieces.flatMap Piece.visible,
      (Rendering.ofMarkup width choices markup).rows.flatMap (Row.sequences .raw))

theorem ReadsBack.of_brackets {mode : ShellMode} {brackets : Brackets}
    (h : mode.brackets? = some brackets) (width : Int) (choices : Choices) (markup : Text) :
    ReadsBack mode brackets width choices markup := by
  have hmarks : brackets.marks? (Outcome.ofMarkup mode width choices markup).written =
      some ((Rendering.ofMarkup width choices markup).pieces.flatMap Piece.marks) := by
    rw [Outcome.ofMarkup, Rendering.output_eq_flatMap]
    exact Piece.marks?_flatMap_written h (fun _ => Rendering.isOrdered_of_mem_pieces)
  refine ⟨rfl, rfl, ?_, ?_⟩
  · rw [Brackets.decode?, hmarks, Option.map_some, Piece.filterMap_char?_flatMap_marks,
      Outcome.ofMarkup, Rendering.output_eq_flatMap]
  · rw [Brackets.split?, hmarks, Option.bind_some, Piece.split?_flatMap_marks,
      Rendering.filterMap_pieces]

/-- For every markup, width and choices, zsh and bash read back what a bare terminal is sent. -/
theorem shell_modes_read_back (width : Int) (choices : Choices) (markup : Text) :
    ReadsBack .zsh .zsh width choices markup ∧ ReadsBack .bash .bash width choices markup :=
  ⟨.of_brackets rfl width choices markup, .of_brackets rfl width choices markup⟩

end ShellPrompt
