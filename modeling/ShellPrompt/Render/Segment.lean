import ShellPrompt.Color.Style
import ShellPrompt.Shell.Mode
import ShellPrompt.Text.Width
/-!
Segments: the stretches of a line between its gaps. A segment is kept as the pieces drawn into it,
so its width and its last literal character do not depend on the shell it is written for.
-/

set_option autoImplicit false

namespace ShellPrompt

/-- What is drawn at once: the codes of one escape sequence, or some text. -/
inductive Piece where
  | escape (codes : List Text)
  | text (text : Text) (literal : Bool)
deriving DecidableEq

namespace Piece

def width : Piece → Nat
  | escape _ => 0
  | text t _ => t.width

def lastLiteral (last : Option CodePoint) : Piece → Option CodePoint
  | text t true => t.getLast?.or last
  | _ => last

def written (mode : ShellMode) : Piece → Text
  | escape codes => mode.wrap (escapeSequence codes)
  | text t _ => mode.protect t

end Piece

/-- Pieces in the order drawn, and the last literal character before the segment on its line. -/
structure Segment where
  inherited : Option CodePoint
  pieces : List Piece
deriving DecidableEq

namespace Segment

def empty (inherited : Option CodePoint) : Segment := ⟨inherited, []⟩

def draw (segment : Segment) (piece : Piece) : Segment :=
  { segment with pieces := segment.pieces ++ [piece] }

def width (segment : Segment) : Nat :=
  total (segment.pieces.map Piece.width)

/-- The last character of the last non-empty literal drawn up to here on the line. -/
def lastLiteral (segment : Segment) : Option CodePoint :=
  segment.pieces.foldl Piece.lastLiteral segment.inherited

def written (mode : ShellMode) (segment : Segment) : Text :=
  segment.pieces.flatMap (Piece.written mode)

@[simp] theorem width_draw (segment : Segment) (piece : Piece) :
    (segment.draw piece).width = segment.width + piece.width := by
  simp [draw, width]

@[simp] theorem lastLiteral_draw (segment : Segment) (piece : Piece) :
    (segment.draw piece).lastLiteral = piece.lastLiteral segment.lastLiteral := by
  simp [draw, lastLiteral]

end Segment

end ShellPrompt
