import ShellPrompt.Proofs.Render.Drawn
import ShellPrompt.Proofs.Render.Sequences
/-!
The output as one run of pieces: texts, fills, line ends, and escape sequences between them. Every
shell mode writes the same pieces, each in its own way, and the escape sequences among them are
written from orders.
-/

set_option autoImplicit false

namespace ShellPrompt

def Piece.visible : Piece → Text
  | escape _ => []
  | text t _ => t

/-- The piece is no escape sequence, or one that is written from orders. -/
def Piece.IsOrdered : Piece → Prop
  | escape codes => ∃ orders : List Order, codes = orders.map Order.code
  | text _ _ => True

def Row.pieces (row : Row) : List Piece :=
  row.first.pieces ++ row.rest.flatMap fun (fill, segment) => .text fill false :: segment.pieces

def Row.joined : List Row → List Piece
  | [] => []
  | [row] => row.pieces
  | row :: rows => row.pieces ++ .text ['\n'] false :: joined rows

def Rendering.pieces (rendering : Rendering) : List Piece :=
  Row.joined rendering.rows

@[simp] theorem ShellMode.protect_lineEnd (mode : ShellMode) :
    mode.protect ['\n'] = ([CodePoint.ofChar '\n'] : Text) := by
  cases mode <;> decide

namespace Row

theorem joined_cons {rows : List Row} (h : rows ≠ []) (row : Row) :
    joined (row :: rows) = row.pieces ++ .text ['\n'] false :: joined rows := by
  cases rows with
  | nil => exact absurd rfl h
  | cons next rows => rfl

theorem written_eq_flatMap (mode : ShellMode) (row : Row) :
    row.written mode = row.pieces.flatMap (Piece.written mode) := by
  rw [written, pieces, List.flatMap_append, List.flatMap_assoc]
  rfl

theorem sequences_eq_filterMap (mode : ShellMode) (row : Row) :
    row.sequences mode = row.pieces.filterMap (Piece.sequence? mode) := by
  have hrest : ∀ rest : List (Text × Segment),
      (rest.map Prod.snd).flatMap (Segment.sequences mode) =
        (rest.flatMap fun (fill, segment) => .text fill false :: segment.pieces).filterMap
          (Piece.sequence? mode) := by
    intro rest
    induction rest with
    | nil => rfl
    | cons gap rest ih =>
      simp only [List.map_cons, List.flatMap_cons, ih, List.filterMap_append]
      rfl
  rw [sequences, segments, List.flatMap_cons, hrest, pieces, List.filterMap_append]
  rfl

theorem join_written (mode : ShellMode) (rows : List Row) :
    Text.join ['\n'] (rows.map (written mode)) = (joined rows).flatMap (Piece.written mode) := by
  induction rows with
  | nil => rfl
  | cons row rows ih =>
    cases rows with
    | nil => exact written_eq_flatMap mode row
    | cons next rows =>
      have hjoin : Text.join ['\n'] ((row :: next :: rows).map (written mode)) =
          row.written mode ++ ([CodePoint.ofChar '\n'] : Text) ++
            Text.join ['\n'] ((next :: rows).map (written mode)) := rfl
      rw [hjoin, joined_cons (List.cons_ne_nil next rows), ih, written_eq_flatMap,
        List.flatMap_append, List.flatMap_cons, Piece.written, ShellMode.protect_lineEnd,
        List.append_assoc]

theorem filterMap_joined (mode : ShellMode) (rows : List Row) :
    (joined rows).filterMap (Piece.sequence? mode) = rows.flatMap (sequences mode) := by
  induction rows with
  | nil => rfl
  | cons row rows ih =>
    cases rows with
    | nil => simp [joined, sequences_eq_filterMap]
    | cons next rows =>
      rw [joined_cons (List.cons_ne_nil next rows), List.filterMap_append,
        ← sequences_eq_filterMap, List.flatMap_cons, ← ih]
      rfl

theorem isOrdered_of_mem_joined {rows : List Row} {piece : Piece} (h : piece ∈ joined rows)
    (hrows : ∀ row ∈ rows, ∀ segment ∈ row.segments, ∀ piece ∈ segment.pieces, piece.IsOrdered) :
    piece.IsOrdered := by
  have hpieces : ∀ row ∈ rows, ∀ piece ∈ row.pieces, piece.IsOrdered := by
    intro row hrow piece hpiece
    rw [pieces, List.mem_append, List.mem_flatMap] at hpiece
    rcases hpiece with hpiece | ⟨⟨fill, segment⟩, hgap, hpiece⟩
    · exact hrows row hrow row.first (by simp [segments]) piece hpiece
    · rcases List.mem_cons.mp hpiece with rfl | hpiece
      · exact trivial
      · have hsegment : segment ∈ row.segments :=
          List.mem_cons_of_mem _ (List.mem_map_of_mem hgap)
        exact hrows row hrow segment hsegment piece hpiece
  induction rows with
  | nil => cases h
  | cons row rows ih =>
    cases rows with
    | nil => exact hpieces row (by simp) piece h
    | cons next rows =>
      rw [joined_cons (List.cons_ne_nil next rows), List.mem_append, List.mem_cons] at h
      rcases h with h | rfl | h
      · exact hpieces row (by simp) piece h
      · exact trivial
      · exact ih h (fun row hrow => hrows row (List.mem_cons_of_mem _ hrow))
          (fun row hrow => hpieces row (List.mem_cons_of_mem _ hrow))

end Row

theorem Line.forall_pieces_draw {P : Piece → Prop} {line : Line} {piece : Piece}
    (h : ∀ segment ∈ line.segments, ∀ piece ∈ segment.pieces, P piece) (hpiece : P piece) :
    ∀ segment ∈ (line.draw piece).segments, ∀ piece ∈ segment.pieces, P piece := by
  intro segment hsegment other hother
  simp only [segments, draw, List.mem_append, List.mem_singleton] at hsegment h
  rcases hsegment with hsegment | rfl
  · exact h segment (Or.inl hsegment) other hother
  · rcases List.mem_append.mp hother with hother | hother
    · exact h line.current (Or.inr rfl) other hother
    · rwa [List.mem_singleton.mp hother]

theorem Drawn.isOrdered {line : Line} {style : Style} (h : Drawn line style) :
    ∀ segment ∈ line.segments, ∀ piece ∈ segment.pieces, piece.IsOrdered := by
  induction h with
  | start => simp [Line.empty, Line.segments, Segment.empty]
  | text h t literal ih => exact Line.forall_pieces_draw ih trivial
  | @escape _ _ h orders hne ih => exact Line.forall_pieces_draw ih ⟨orders, rfl⟩
  | @startSegment line _ h ih =>
    intro segment hsegment piece hpiece
    simp only [Line.startSegment, Line.segments, List.mem_append, List.mem_singleton] at hsegment ih
    rcases hsegment with hsegment | rfl
    · exact ih segment hsegment piece hpiece
    · cases hpiece

namespace Rendering

theorem output_eq_flatMap (mode : ShellMode) (rendering : Rendering) :
    rendering.output mode = rendering.pieces.flatMap (Piece.written mode) :=
  Row.join_written mode rendering.rows

theorem filterMap_pieces (mode : ShellMode) (rendering : Rendering) :
    rendering.pieces.filterMap (Piece.sequence? mode) =
      rendering.rows.flatMap (Row.sequences mode) :=
  Row.filterMap_joined mode rendering.rows

theorem isOrdered_of_mem_pieces {width : Int} {choices : Choices} {markup : Text} {piece : Piece}
    (h : piece ∈ (ofMarkup width choices markup).pieces) : piece.IsOrdered := by
  refine Row.isOrdered_of_mem_joined h ?_
  intro row hrow segment hsegment
  obtain ⟨line, hdrawn, hsegments⟩ := exists_drawn_of_mem_rows hrow
  rw [hsegments] at hsegment
  exact hdrawn.isOrdered segment hsegment

end Rendering

end ShellPrompt
