import ShellPrompt.Markup.Glyphs
import ShellPrompt.Random.Choices
import ShellPrompt.Render.Segment
/-!
Lines and their justification. A line is drawn as segments; once it ends, the columns that are
left are shared among the gaps between them, and the gaps are filled.
-/

set_option autoImplicit false

namespace ShellPrompt

structure Line where
  finished : List Segment
  current : Segment
deriving DecidableEq

namespace Line

def empty : Line := ⟨[], .empty none⟩

def segments (line : Line) : List Segment :=
  line.finished ++ [line.current]

def draw (line : Line) (piece : Piece) : Line :=
  { line with current := line.current.draw piece }

def startSegment (line : Line) : Line :=
  ⟨line.segments, .empty line.current.lastLiteral⟩

def width (line : Line) : Nat :=
  total (line.segments.map Segment.width)

def firstAndRest (line : Line) : Segment × List Segment :=
  match line.finished with
  | [] => (line.current, [])
  | first :: rest => (first, rest ++ [line.current])

end Line

/-- `total` shared among `count` places; the earlier ones get what does not divide. -/
def shares (total count : Nat) : List Nat :=
  (List.range count).map fun i => total / count + if i < total % count then 1 else 0

namespace Fill

def chosen (fill : Fill) (last : Option CodePoint) : Nat → Choices → Text × Choices
  | 0, choices => ([], choices)
  | n + 1, choices =>
    let (i, choices) := choices.choose fill.others.length
    let (text, choices) := chosen fill last n choices
    (((fill.first :: fill.others).get i).resolve last :: text, choices)

/-- `n` glyphs of a fill; a fill of one glyph repeats it and makes no choice. -/
def text (fill : Fill) (last : Option CodePoint) (n : Nat) (choices : Choices) :
    Text × Choices :=
  if fill.others.isEmpty then (List.replicate n (fill.first.resolve last), choices)
  else fill.chosen last n choices

end Fill

/-- A justified line: its first segment, then each gap's fill with the segment after it. -/
structure Row where
  first : Segment
  rest : List (Text × Segment)
deriving DecidableEq

namespace Row

/--
Fills the gap before each segment with so many glyphs. `#` in a gap repeats the last literal
character of the segment before it.
-/
def fillGaps (fill : Fill) :
    Segment → List (Nat × Segment) → Choices → List (Text × Segment) × Choices
  | _, [], choices => ([], choices)
  | before, (n, segment) :: rest, choices =>
    let (text, choices) := fill.text before.lastLiteral n choices
    let (row, choices) := fillGaps fill segment rest choices
    ((text, segment) :: row, choices)

def freeColumns (width : Int) (line : Line) : Nat :=
  (width - line.width).toNat

def justify (width : Int) (fill : Fill) (line : Line) (choices : Choices) : Row × Choices :=
  let (first, rest) := line.firstAndRest
  let sizes := shares (freeColumns width line) rest.length
  let (row, choices) := fillGaps fill first (sizes.zip rest) choices
  (⟨first, row⟩, choices)

def segments (row : Row) : List Segment :=
  row.first :: row.rest.map Prod.snd

def fills (row : Row) : List Text :=
  row.rest.map Prod.fst

def written (mode : ShellMode) (row : Row) : Text :=
  row.first.written mode ++
    row.rest.flatMap fun (fill, segment) => mode.protect fill ++ segment.written mode

end Row

end ShellPrompt
