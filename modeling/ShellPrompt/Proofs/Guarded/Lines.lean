import ShellPrompt.Render.Line
import ShellPrompt.Proofs.Guarded.Basic
/-!
Justification with guards. Free columns are divided among the gaps, a gap is filled by the segment
before it, and a random glyph is chosen among those there are; all of these are checked.
-/

set_option autoImplicit false

namespace ShellPrompt

namespace Guarded

def choice (glyphs : List CodePoint) (choices : Choices) : Guarded Empty (CodePoint × Choices) :=
  match glyphs.length with
  | 0 => .error (.slip .index)
  | others + 1 => do
    let (i, choices) := choices.choose others
    let glyph ← element glyphs i
    return (glyph, choices)

def chosen (glyphs : List CodePoint) : Nat → Choices → Guarded Empty (Text × Choices)
  | 0, choices => return ([], choices)
  | n + 1, choices => do
    let (glyph, choices) ← choice glyphs choices
    let (text, choices) ← chosen glyphs n choices
    return (glyph :: text, choices)

def fillText (fill : Fill) (last : Option CodePoint) (n : Nat) (choices : Choices) :
    Guarded Empty (Text × Choices) :=
  let glyphs := fill.toList.map (FillGlyph.resolve last)
  if glyphs.length = 1 then do
    let glyph ← element glyphs 0
    return (List.replicate n glyph, choices)
  else chosen glyphs n choices

def fillGaps (fill : Fill) (segments : List Segment) (base extra : Nat) :
    Nat → List Segment → Choices → Guarded Empty (List (Text × Segment) × Choices)
  | _, [], choices => return ([], choices)
  | gap, segment :: rest, choices => do
    let before ← element segments gap
    let (text, choices) ←
      fillText fill before.lastLiteral (base + if gap < extra then 1 else 0) choices
    let (row, choices) ← fillGaps fill segments base extra (gap + 1) rest choices
    return ((text, segment) :: row, choices)

def justify (width : Int) (fill : Fill) (line : Line) (choices : Choices) :
    Guarded Empty (Row × Choices) := do
  let segments := line.segments
  let first ← element segments 0
  if segments.length = 1 then
    return (⟨first, []⟩, choices)
  else
    let (base, extra) ← quotient (Row.freeColumns width line) (segments.length - 1)
    let (row, choices) ← fillGaps fill segments base extra 0 (segments.drop 1) choices
    return (⟨first, row⟩, choices)

theorem length_resolved (fill : Fill) (last : Option CodePoint) :
    (fill.toList.map (FillGlyph.resolve last)).length = fill.others.length + 1 := by
  simp [Fill.toList]

theorem choice_resolve (fill : Fill) (last : Option CodePoint) (choices : Choices) :
    choice (fill.toList.map (FillGlyph.resolve last)) choices =
      .ok (((fill.first :: fill.others).get (choices.choose fill.others.length).1).resolve last,
        (choices.choose fill.others.length).2) := by
  have hglyph : (fill.toList.map (FillGlyph.resolve last))[(choices.choose
      fill.others.length).1.val]? =
        some (((fill.first :: fill.others).get
          (choices.choose fill.others.length).1).resolve last) := by
    rw [List.getElem?_map, Fill.toList,
      List.getElem?_eq_getElem (choices.choose fill.others.length).1.isLt]
    rfl
  rw [choice]
  split
  next hnone =>
    rw [length_resolved] at hnone
    cases hnone
  next others hsome =>
    rw [length_resolved] at hsome
    have hothers : others = fill.others.length := by omega
    subst hothers
    simp only [element_of_getElem? hglyph]
    rfl

theorem chosen_eq (fill : Fill) (last : Option CodePoint) (n : Nat) (choices : Choices) :
    chosen (fill.toList.map (FillGlyph.resolve last)) n choices =
      .ok (fill.chosen last n choices) := by
  induction n generalizing choices with
  | zero => rfl
  | succ n ih =>
    rw [chosen, choice_resolve]
    simp only [bind, Except.bind, ih]
    rfl

theorem fillText_eq (fill : Fill) (last : Option CodePoint) (n : Nat) (choices : Choices) :
    fillText fill last n choices = .ok (fill.text last n choices) := by
  rw [fillText, Fill.text]
  cases hothers : fill.others with
  | nil =>
    have hone : (fill.toList.map (FillGlyph.resolve last)).length = 1 := by
      rw [length_resolved, hothers, List.length_nil]
    have hfirst : (fill.toList.map (FillGlyph.resolve last))[0]? =
        some (fill.first.resolve last) := rfl
    simp only [if_pos hone, element_of_getElem? hfirst]
    rfl
  | cons second others =>
    have hmany : (fill.toList.map (FillGlyph.resolve last)).length ≠ 1 := by
      rw [length_resolved, hothers]
      simp
    simp only [if_neg hmany, chosen_eq]
    rfl

theorem fillGaps_eq (fill : Fill) (total count : Nat) {segments seen rest : List Segment}
    {before : Segment} (hsegments : segments = seen ++ before :: rest) (choices : Choices) :
    fillGaps fill segments (total / count) (total % count) seen.length rest choices =
      .ok (Row.fillGaps fill before
        (((List.range' seen.length rest.length).map fun i =>
          total / count + if i < total % count then 1 else 0).zip rest) choices) := by
  induction rest generalizing seen before choices with
  | nil => rfl
  | cons segment rest ih =>
    have hbefore : segments[seen.length]? = some before := by
      rw [hsegments, List.getElem?_append_right (Nat.le_refl _), Nat.sub_self]
      rfl
    have hnext : segments = (seen ++ [before]) ++ segment :: rest := by simp [hsegments]
    have hplace : (seen ++ [before]).length = seen.length + 1 := by simp
    have hrest := ih hnext
    rw [hplace] at hrest
    rw [fillGaps, element_of_getElem? hbefore, List.length_cons, List.range'_succ]
    simp only [bind, Except.bind, fillText_eq, hrest]
    rfl

theorem segments_eq_cons (line : Line) :
    line.segments = line.firstAndRest.1 :: line.firstAndRest.2 := by
  rw [Line.segments, Line.firstAndRest]
  cases line.finished <;> rfl

theorem justify_eq (width : Int) (fill : Fill) (line : Line) (choices : Choices) :
    justify width fill line choices = .ok (Row.justify width fill line choices) := by
  have hfirst : line.segments[0]? = some line.firstAndRest.1 := by
    rw [segments_eq_cons]
    rfl
  rw [justify, Row.justify]
  simp only [element_of_getElem? hfirst, bind, Except.bind]
  cases hrest : line.firstAndRest.2 with
  | nil =>
    have hone : line.segments.length = 1 := by simp [segments_eq_cons, hrest]
    rw [if_pos hone]
    rfl
  | cons second rest =>
    have hcount : line.segments.length - 1 = (second :: rest).length := by
      simp [segments_eq_cons, hrest]
    have hmany : ¬ line.segments.length = 1 := by
      simp [segments_eq_cons, hrest]
    have hgaps : (second :: rest).length ≠ 0 := by simp
    have hdrop : line.segments.drop 1 = second :: rest := by
      rw [segments_eq_cons, hrest]
      rfl
    have hsegments : line.segments = [] ++ line.firstAndRest.1 :: (second :: rest) := by
      rw [segments_eq_cons, hrest]
      rfl
    have hfill := fillGaps_eq fill (Row.freeColumns width line) (second :: rest).length hsegments
      choices
    rw [if_neg hmany, hcount, hdrop, quotient_of_ne_zero _ hgaps]
    simp only [shares, List.range_eq_range']
    rw [List.length_nil] at hfill
    rw [hfill]
    rfl

end Guarded

end ShellPrompt
