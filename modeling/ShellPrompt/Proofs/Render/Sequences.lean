import ShellPrompt.Color.Terminal
import ShellPrompt.Proofs.Render.Run
/-!
The escape sequences of a line: what the terminal receives of it besides text. A shell mode puts
brackets around each; between the brackets stands the same sequence in every mode.
-/

set_option autoImplicit false

namespace ShellPrompt

namespace ShellMode

def unwrap (mode : ShellMode) (t : Text) : Text :=
  (t.drop mode.before.length).take (t.length - mode.before.length - mode.after.length)

@[simp] theorem unwrap_wrap (mode : ShellMode) (t : Text) : mode.unwrap (mode.wrap t) = t := by
  simp [unwrap, wrap]

end ShellMode

def Piece.sequence? (mode : ShellMode) : Piece → Option Text
  | escape codes => some (mode.unwrap ((escape codes).written mode))
  | text _ _ => none

def Segment.sequences (mode : ShellMode) (segment : Segment) : List Text :=
  segment.pieces.filterMap (Piece.sequence? mode)

def Line.sequences (mode : ShellMode) (line : Line) : List Text :=
  line.segments.flatMap (Segment.sequences mode)

def Row.sequences (mode : ShellMode) (row : Row) : List Text :=
  row.segments.flatMap (Segment.sequences mode)

theorem Piece.written_raw_escape (codes : List Text) :
    (escape codes).written .raw = escapeSequence codes := by
  simp [written, ShellMode.wrap, ShellMode.before, ShellMode.after]

@[simp] theorem Piece.sequence?_escape (mode : ShellMode) (codes : List Text) :
    (Piece.escape codes).sequence? mode = some (escapeSequence codes) := by
  simp [sequence?, written]

@[simp] theorem Piece.sequence?_text (mode : ShellMode) (t : Text) (literal : Bool) :
    (Piece.text t literal).sequence? mode = none := rfl

namespace Line

@[simp] theorem sequences_draw (mode : ShellMode) (line : Line) (piece : Piece) :
    (line.draw piece).sequences mode = line.sequences mode ++ (piece.sequence? mode).toList := by
  cases h : piece.sequence? mode <;>
    simp [sequences, segments, draw, Segment.draw, Segment.sequences, List.filterMap_append, h]

@[simp] theorem sequences_startSegment (mode : ShellMode) (line : Line) :
    line.startSegment.sequences mode = line.sequences mode := by
  simp [sequences, segments, startSegment, Segment.sequences, Segment.empty]

end Line

end ShellPrompt
