import ShellPrompt.Proofs.Render.Pieces
import ShellPrompt.Text.Width
/-!
Control characters in the output. The escape sequences that are drawn hold none but the U+001B in
front, so the output is free of others exactly if the texts are (`Rendering.isContained_iff`).
-/

set_option autoImplicit false

namespace ShellPrompt

namespace CodePoint

def isControlCode (c : CodePoint) : Bool :=
  c.val = 0 || c.isControl

def escape : CodePoint := ofChar '\x1b'

def lineFeed : CodePoint := ofChar '\n'

def carriageReturn : CodePoint := ofChar '\r'

end CodePoint

namespace Order

theorem escapeSequence_eq_cons (orders : List Order) :
    ∃ rest, escapeSequence (orders.map code) = CodePoint.escape :: rest ∧
      ∀ c ∈ rest, c.isControlCode = false := by
  refine ⟨CodePoint.ofChar '[' :: (Text.join [';'] (orders.map code) ++ (['m'] : Text)), rfl, ?_⟩
  have hcode : ∀ {c : CodePoint},
      c = CodePoint.ofChar ';' ∨ 0x30 ≤ c.val ∧ c.val ≤ 0x39 → c.isControlCode = false := by
    rintro c (rfl | hdigit)
    · decide
    · simp only [CodePoint.isControlCode, CodePoint.isControl, Bool.or_eq_false_iff,
        Bool.and_eq_false_iff, decide_eq_false_iff_not]
      omega
  intro c hc
  rcases List.mem_cons.mp hc with rfl | hc
  · decide
  rcases List.mem_append.mp hc with hc | hc
  · rcases Text.mem_join hc with hc | ⟨part, hpart, hc⟩
    · exact hcode (Or.inl (List.mem_singleton.mp hc))
    · obtain ⟨order, -, rfl⟩ := List.mem_map.mp hpart
      exact hcode (mem_code hc)
  · rw [List.mem_singleton.mp hc]
    decide

end Order

namespace Piece

theorem count_flatMap_written {pieces : List Piece} (h : ∀ piece ∈ pieces, piece.IsOrdered)
    {c : CodePoint} (hcontrol : c.isControlCode = true) (hne : c ≠ CodePoint.escape) :
    (pieces.flatMap (written .raw)).count c = (pieces.flatMap visible).count c := by
  induction pieces with
  | nil => rfl
  | cons piece pieces ih =>
    rw [List.forall_mem_cons] at h
    have hpiece : (piece.written .raw).count c = piece.visible.count c := by
      cases piece with
      | text t literal => rfl
      | escape codes =>
        obtain ⟨orders, rfl⟩ := h.1
        obtain ⟨rest, hsequence, hrest⟩ := Order.escapeSequence_eq_cons orders
        rw [written_raw_escape, hsequence, List.count_cons_of_ne hne.symm, visible, List.count_nil,
          List.count_eq_zero]
        intro hc
        exact absurd hcontrol (Bool.eq_false_iff.mp (hrest c hc))
    rw [List.flatMap_cons, List.flatMap_cons, List.count_append, List.count_append, hpiece, ih h.2]

theorem eq_escape_of_written {piece : Piece} (h : piece.IsOrdered)
    (hseen : CodePoint.escape ∉ piece.visible) {front back : Text}
    (hwritten : piece.written .raw = front ++ CodePoint.escape :: back) :
    (∃ orders : List Order, piece = .escape (orders.map Order.code)) ∧ front = [] := by
  cases piece with
  | text t literal =>
    refine absurd ?_ hseen
    change CodePoint.escape ∈ t
    rw [show t = _ from hwritten]
    exact List.mem_append_cons_self
  | escape codes =>
    obtain ⟨orders, rfl⟩ := h
    obtain ⟨rest, hsequence, hrest⟩ := Order.escapeSequence_eq_cons orders
    refine ⟨⟨orders, rfl⟩, ?_⟩
    rw [written_raw_escape, hsequence] at hwritten
    cases front with
    | nil => rfl
    | cons c front =>
      obtain ⟨-, hrest'⟩ := List.cons.inj hwritten
      have hescape : CodePoint.escape ∈ rest := by
        rw [hrest']
        exact List.mem_append_cons_self
      exact absurd (hrest _ hescape) (by decide)

theorem exists_escape_of_written {pieces : List Piece} (h : ∀ piece ∈ pieces, piece.IsOrdered)
    (hseen : CodePoint.escape ∉ pieces.flatMap visible) {front back : Text}
    (hwritten : pieces.flatMap (written .raw) = front ++ CodePoint.escape :: back) :
    ∃ (before : List Piece) (orders : List Order) (after : List Piece),
      pieces = before ++ .escape (orders.map Order.code) :: after ∧
        front = before.flatMap (written .raw) := by
  induction pieces generalizing front with
  | nil => exact absurd hwritten.symm (List.append_ne_nil_of_right_ne_nil _ (List.cons_ne_nil _ _))
  | cons piece pieces ih =>
    rw [List.forall_mem_cons] at h
    rw [List.flatMap_cons, List.mem_append, not_or] at hseen
    -- The U+001B stands behind this piece.
    have hlater : ∀ rest, front = piece.written .raw ++ rest →
        pieces.flatMap (written .raw) = rest ++ CodePoint.escape :: back →
          ∃ (before : List Piece) (orders : List Order) (after : List Piece),
            piece :: pieces = before ++ .escape (orders.map Order.code) :: after ∧
              front = before.flatMap (written .raw) := by
      intro rest hfront hrest
      obtain ⟨before, orders, after, hpieces, hbefore⟩ := ih h.2 hseen.2 hrest
      exact ⟨piece :: before, orders, after, by rw [hpieces, List.cons_append],
        by rw [hfront, hbefore, List.flatMap_cons]⟩
    rw [List.flatMap_cons] at hwritten
    rcases List.append_eq_append_iff.mp hwritten with ⟨rest, hfront, hrest⟩ | ⟨rest, hpiece, hrest⟩
    · exact hlater rest hfront hrest
    · cases rest with
      | nil => exact hlater [] (by simpa using hpiece.symm) hrest.symm
      | cons c rest =>
        obtain ⟨rfl, -⟩ := List.cons.inj hrest
        obtain ⟨⟨orders, rfl⟩, rfl⟩ := eq_escape_of_written h.1 hseen.1 hpiece
        exact ⟨[], orders, pieces, rfl, rfl⟩

end Piece

namespace Rendering

/--
What a terminal is sent stays on two lines, and no control character in it is anything but a line
end or the beginning of an escape sequence that was drawn.
-/
structure IsContained (rendering : Rendering) : Prop where
  oneLineFeed : (rendering.output .raw).count CodePoint.lineFeed = 1
  noReturn : CodePoint.carriageReturn ∉ rendering.output .raw
  escapes : ∀ front back, rendering.output .raw = front ++ CodePoint.escape :: back →
    ∃ (before : List Piece) (orders : List Order) (after : List Piece),
      rendering.pieces = before ++ .escape (orders.map Order.code) :: after ∧
        front = before.flatMap (Piece.written .raw)
  seen : (rendering.pieces.flatMap Piece.visible).filter CodePoint.isControlCode =
    [CodePoint.lineFeed]

/-- It does if one line end is the only control character that is seen. -/
theorem isContained_iff {width : Int} {choices : Choices} {markup : Text} :
    (ofMarkup width choices markup).IsContained ↔
      ((ofMarkup width choices markup).pieces.flatMap Piece.visible).filter
        CodePoint.isControlCode = [CodePoint.lineFeed] := by
  refine ⟨IsContained.seen, fun hseen => ?_⟩
  have hordered : ∀ piece ∈ (ofMarkup width choices markup).pieces, piece.IsOrdered :=
    fun _ => isOrdered_of_mem_pieces
  have hcount : ∀ {c : CodePoint}, c.isControlCode = true → c ≠ CodePoint.escape →
      ((ofMarkup width choices markup).output .raw).count c = [CodePoint.lineFeed].count c := by
    intro c hcontrol hne
    rw [output_eq_flatMap, Piece.count_flatMap_written hordered hcontrol hne, ← hseen,
      List.count_filter hcontrol]
  refine ⟨?_, ?_, ?_, hseen⟩
  · exact (hcount (by decide) (by decide)).trans (by decide)
  · rw [← List.count_eq_zero]
    exact (hcount (by decide) (by decide)).trans (by decide)
  · intro front back houtput
    rw [output_eq_flatMap] at houtput
    refine Piece.exists_escape_of_written hordered (fun hescape => ?_) houtput
    have hmem := List.mem_filter.mpr ⟨hescape, (by decide : CodePoint.escape.isControlCode = true)⟩
    rw [hseen] at hmem
    exact absurd hmem (by decide)

end Rendering

end ShellPrompt
