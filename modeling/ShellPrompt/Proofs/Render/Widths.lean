import ShellPrompt.Proofs.Render.Texts
/-!
Widths add up. Only U+200D and U+FE0F make the measure of a character depend on its neighbours; texts
without them are as wide together as they are one by one, although a control character in one of them
changes the way in which the whole is measured. So the width of a segment is that of its text, the
width of a line is that of its whole text, and what a rendered line leaves to its gaps does not depend
on how its text is cut into tokens. Main statement: `widths_add_up`.
-/

set_option autoImplicit false

namespace ShellPrompt

namespace CodePoint

/-- The columns of a character as an integer: −1 if it has no width. -/
def signedColumns (c : CodePoint) : Int :=
  c.columns?.elim (-1) Int.ofNat

theorem toNat_signedColumns (c : CodePoint) : c.signedColumns.toNat = c.columns := by
  rw [signedColumns, columns]
  cases c.columns? <;> rfl

end CodePoint

namespace Text

/-- What the scan of a text answers as an integer: −1 where a control character ends it. -/
def scanned (t : Text) : Int :=
  (columnsAfter? none t).elim (-1) Int.ofNat

/--
The measure of a text over the integers. Where the scan answers −1, the characters are measured one
by one instead, and those without a width are left out.
-/
def signedWidth (t : Text) : Int :=
  if t.scanned < 0 then total (t.map fun c => c.signedColumns.toNat) else t.scanned

/-- Neither U+200D nor U+FE0F is in the text, so no character says how another one is measured. -/
structure IsUnlinked (t : Text) : Prop where
  joiner : CodePoint.joiner ∉ t
  selector : CodePoint.selector ∉ t

theorem isUnlinked_iff {t : Text} :
    t.IsUnlinked ↔ CodePoint.joiner ∉ t ∧ CodePoint.selector ∉ t :=
  ⟨fun h => ⟨h.joiner, h.selector⟩, fun h => ⟨h.1, h.2⟩⟩

instance (t : Text) : Decidable t.IsUnlinked :=
  decidable_of_iff _ isUnlinked_iff.symm

variable {a b t : Text}

@[simp] theorem isUnlinked_append : (a ++ b).IsUnlinked ↔ a.IsUnlinked ∧ b.IsUnlinked := by
  simp only [isUnlinked_iff, List.mem_append, not_or]
  exact and_and_and_comm

theorem isUnlinked_flatMap {α : Type} {f : α → Text} {xs : List α} :
    IsUnlinked (xs.flatMap f) ↔ ∀ x ∈ xs, (f x).IsUnlinked := by
  induction xs with
  | nil => simp [isUnlinked_iff]
  | cons x xs ih => rw [List.flatMap_cons, isUnlinked_append, ih, List.forall_mem_cons]

theorem IsUnlinked.width (h : t.IsUnlinked) : t.width = total (t.map CodePoint.columns) :=
  width_of_not_mem h.joiner h.selector

theorem width_append (ha : a.IsUnlinked) (hb : b.IsUnlinked) :
    (a ++ b).width = a.width + b.width := by
  rw [(isUnlinked_append.mpr ⟨ha, hb⟩).width, ha.width, hb.width, List.map_append, total_append]

/-- A joiner hides the first character of the text after it, and U+FE0F widens the last before it. -/
example :
    (width ['a', CodePoint.joiner], width ['b'], width ['a', CodePoint.joiner, 'b']) = (1, 1, 1) ∧
      (width ['☁'], width [CodePoint.selector], width ['☁', CodePoint.selector]) = (1, 0, 2) := by
  decide +kernel

theorem width_flatMap {α : Type} {f : α → Text} {xs : List α} (h : ∀ x ∈ xs, (f x).IsUnlinked) :
    width (xs.flatMap f) = total (xs.map fun x => (f x).width) := by
  induction xs with
  | nil => rfl
  | cons x xs ih =>
    obtain ⟨hx, hxs⟩ := List.forall_mem_cons.mp h
    rw [List.flatMap_cons, width_append hx (isUnlinked_flatMap.mpr hxs), ih hxs, List.map_cons,
      total_cons]

theorem scanned_neg_iff : t.scanned < 0 ↔ columnsAfter? none t = none := by
  rw [scanned]
  cases columnsAfter? none t <;> simp

theorem IsUnlinked.scanned_neg_iff (h : t.IsUnlinked) :
    t.scanned < 0 ↔ t.any CodePoint.isControl = true := by
  rw [Text.scanned_neg_iff, columnsAfter?_of_not_mem none h.joiner]
  cases t.any CodePoint.isControl <;> simp

/-- No −1 is left: the measure over the integers is the width. -/
theorem signedWidth_eq_width (t : Text) : t.signedWidth = (t.width : Int) := by
  simp only [signedWidth, CodePoint.toNat_signedColumns]
  rw [Text.width]
  cases hscan : columnsAfter? none t with
  | none => exact if_pos (scanned_neg_iff.mpr hscan)
  | some n =>
    have hscanned : t.scanned = (n : Int) := by
      rw [scanned, hscan]
      rfl
    rw [hscanned]
    exact if_neg (Int.not_lt.mpr (Int.natCast_nonneg n))

end Text

theorem Piece.width_visible (piece : Piece) : piece.visible.width = piece.width := by
  cases piece <;> rfl

namespace Segment

theorem width_foldl_draw (segment : Segment) (pieces : List Piece) :
    (pieces.foldl draw segment).width = segment.width + total (pieces.map Piece.width) := by
  induction pieces generalizing segment with
  | nil => rfl
  | cons piece pieces ih =>
    rw [List.foldl_cons, ih, width_draw, List.map_cons, total_cons, Nat.add_assoc]

theorem total_width_pieces {pieces : List Piece}
    (h : ∀ piece ∈ pieces, piece.visible.IsUnlinked) :
    total (pieces.map Piece.width) = Text.width (pieces.flatMap Piece.visible) := by
  rw [Text.width_flatMap h]
  exact congrArg total (List.map_congr_left fun piece _ => piece.width_visible.symm)

theorem total_width_segments {segments : List Segment}
    (h : Text.IsUnlinked (segments.flatMap visible)) :
    total (segments.map width) = Text.width (segments.flatMap visible) := by
  have hsegments : ∀ segment ∈ segments, segment.visible.IsUnlinked := Text.isUnlinked_flatMap.mp h
  rw [Text.width_flatMap hsegments]
  exact congrArg total (List.map_congr_left fun segment hsegment =>
    total_width_pieces (Text.isUnlinked_flatMap.mp (hsegments segment hsegment)))

end Segment

theorem Drawing.total_length_fills_drawLine {width : Int} {drawing after : Drawing}
    {lexemes : List Lexeme} {row : Row} (hdrawn : drawing.drawLine width lexemes = (row, after))
    (hgaps : row.rest ≠ []) :
    total (row.fills.map List.length) = (width - row.contentWidth).toNat := by
  obtain ⟨line, choices, hrow⟩ := (lexemes.foldl apply drawing).exists_justify_eq_finishLine width
  rw [show (lexemes.foldl apply drawing).finishLine width = (row, after) from hdrawn] at hrow
  obtain rfl : row = (Row.justify width after.fill line choices).1 := hrow
  rw [Row.total_length_fills_justify hgaps, Row.contentWidth_justify, Row.freeColumns]

/--
Widths add up. The measure over the integers never ends at −1 and is the width. Texts without U+200D
and U+FE0F are as wide together as they are one by one, and together they are measured one character
after the other exactly if one of them is. So a segment is as wide as the texts drawn into it are in
one piece, with any escape sequences between them, and a line is as wide as its whole text. And in
every rendering the segments of a row are as wide as the text that the tokens of its line draw, and
its gaps get a glyph for each column that this text leaves.
-/
theorem widths_add_up :
    (∀ t : Text, 0 ≤ t.signedWidth ∧ (t.width : Int) = t.signedWidth) ∧
    (∀ a b : Text, a.IsUnlinked → b.IsUnlinked →
      (a ++ b).width = a.width + b.width ∧
        ((a ++ b).scanned < 0 ↔ a.scanned < 0 ∨ b.scanned < 0)) ∧
    (∀ (last : Option CodePoint) (pieces : List Piece),
      (∀ piece ∈ pieces, piece.visible.IsUnlinked) →
        (pieces.foldl Segment.draw (.empty last)).width =
          Text.width (pieces.flatMap Piece.visible)) ∧
    (∀ line : Line,
      (∀ segment ∈ line.segments, ∀ piece ∈ segment.pieces, piece.visible.IsUnlinked) →
        line.width = line.visible.width) ∧
    ∀ (width : Int) (choices : Choices) (markup : Text) (n : Nat) (line : List Lexeme) (row : Row),
      let lexing := Lexing.ofMarkup markup
      let text := Lexeme.drawnText (Separators.inForce (lexing.lines.take n).flatten) line
      lexing.lines[n]? = some line → (Rendering.ofMarkup width choices markup).rows[n]? = some row →
        text.IsUnlinked →
          row.contentWidth = text.width ∧
            (row.rest ≠ [] → total (row.fills.map List.length) = (width - text.width).toNat) := by
  refine ⟨?_, ?_, ?_, ?_, ?_⟩
  · intro t
    rw [t.signedWidth_eq_width]
    exact ⟨Int.natCast_nonneg _, rfl⟩
  · intro a b ha hb
    refine ⟨Text.width_append ha hb, ?_⟩
    rw [(Text.isUnlinked_append.mpr ⟨ha, hb⟩).scanned_neg_iff, ha.scanned_neg_iff,
      hb.scanned_neg_iff, List.any_append, Bool.or_eq_true]
  · intro last pieces h
    rw [Segment.width_foldl_draw, Segment.total_width_pieces h]
    exact Nat.zero_add _
  · intro line h
    refine Segment.total_width_segments (Text.isUnlinked_flatMap.mpr fun segment hsegment => ?_)
    exact Text.isUnlinked_flatMap.mpr (h segment hsegment)
  · intro width choices markup n line row lexing text hline hrow h
    obtain ⟨drawing, after, row', hrow', hdrawn, hbegin, hseparators⟩ :=
      Rendering.exists_row width choices hline
    obtain rfl : row' = row := Option.some_inj.mp (hrow'.symm.trans hrow)
    have htext : row'.segments.flatMap Segment.visible = text := by
      rw [(Drawing.visible_drawLine hbegin hdrawn).2, hseparators]
    have hcontent : row'.contentWidth = text.width := by
      rw [← htext] at h ⊢
      exact Segment.total_width_segments h
    refine ⟨hcontent, fun hgaps => ?_⟩
    rw [Drawing.total_length_fills_drawLine hdrawn hgaps, hcontent]

/-- A wide character with a tab, a reset, and a letter with an accent: together, drawn and rendered. -/
theorem widths_add_up_wide_tab :
    let a : Text := "日\t"
    let b : Text := "e\u0301"
    let reset : Piece := .escape [Style.resetCode]
    let pieces : List Piece := [.text a true, reset, .text b true]
    let line : Line := ⟨[⟨none, [.text a true]⟩], ⟨some '\t', [reset, .text b true]⟩⟩
    let markup : Text := "\"日\t\"*0\"e\u0301\""
    (a.IsUnlinked ∧ b.IsUnlinked ∧ (a ++ b).width = a.width + b.width) ∧
    (a.scanned < 0 ∧ ¬ b.scanned < 0 ∧ (a ++ b).scanned < 0) ∧
    ((∀ piece ∈ pieces, piece.visible.IsUnlinked) ∧
      (pieces.foldl Segment.draw (.empty none)).width = (a ++ b).width) ∧
    line.width = (a ++ b).width ∧
    ∃ row, (Rendering.ofMarkup 10 (.cycle [0]) markup).rows[0]? = some row ∧
      row.contentWidth = (a ++ b).width ∧ total (row.fills.map List.length) = 7 := by
  intro a b reset pieces line markup
  obtain ⟨-, hadd, hsegment, hline, hrow⟩ := widths_add_up
  have ha : a.IsUnlinked := by decide
  have hb : b.IsUnlinked := by decide
  have hpieces : ∀ piece ∈ pieces, piece.visible.IsUnlinked := by decide
  have hsegments : ∀ segment ∈ line.segments, ∀ piece ∈ segment.pieces,
      piece.visible.IsUnlinked := by decide
  obtain ⟨hwidth, hscanned⟩ := hadd a b ha hb
  have hcontrol : a.scanned < 0 := by decide +kernel
  obtain ⟨row, hfirst, hgap⟩ : ∃ row,
      row ∈ (Rendering.ofMarkup 10 (.cycle [0]) markup).rows[0]? ∧ row.rest ≠ [] := by
    decide +kernel
  have hlexed : (Lexing.ofMarkup markup).lines[0]? =
      some [.literal a, .segmentBreak, .reset, .literal b] := by decide +kernel
  obtain ⟨hcontent, hfree⟩ := hrow 10 (.cycle [0]) markup 0 _ row hlexed hfirst (by decide +kernel)
  refine ⟨⟨ha, hb, hwidth⟩, ⟨hcontrol, by decide +kernel, hscanned.mpr (Or.inl hcontrol)⟩,
    ⟨hpieces, hsegment none pieces hpieces⟩, hline line hsegments, row, hfirst, hcontent, ?_⟩
  exact (hfree hgap).trans (by decide +kernel)

end ShellPrompt
