import ShellPrompt.Proofs.Render.Run
import ShellPrompt.Proofs.Text.Measuring
/-!
Justified lines. The gaps of a line share its free columns and get a glyph for each column, so the
line spans the terminal if the glyphs of the fill take one column each. A fill of wide glyphs makes
a line too long.
-/

set_option autoImplicit false

namespace ShellPrompt

theorem total_shared (quotient remainder count : Nat) :
    total ((List.range count).map fun i => quotient + if i < remainder then 1 else 0) =
      quotient * count + min count remainder := by
  induction count with
  | zero => simp
  | succ count ih =>
    rw [List.range_succ, List.map_append, total_append, ih, Nat.mul_succ]
    simp only [List.map_cons, List.map_nil, total_cons, total_nil]
    split <;> omega

theorem total_shares (n : Nat) {count : Nat} (h : count ≠ 0) : total (shares n count) = n := by
  have hmod := Nat.mod_lt n (Nat.pos_of_ne_zero h)
  have hdiv := Nat.div_add_mod n count
  rw [shares, total_shared, Nat.min_eq_right (Nat.le_of_lt hmod), Nat.mul_comm]
  exact hdiv

namespace Text

theorem total_columns_of_oneColumn {t : Text} (h : ∀ c ∈ t, c.columns? = some 1) :
    total (t.map CodePoint.columns) = t.length := by
  induction t with
  | nil => rfl
  | cons c t ih =>
    obtain ⟨hc, ht⟩ := List.forall_mem_cons.mp h
    rw [List.map_cons, total_cons, ih ht, CodePoint.columns, hc, Option.getD_some,
      List.length_cons, Nat.add_comm]

theorem width_of_oneColumn {t : Text} (h : ∀ c ∈ t, c.columns? = some 1) :
    t.width = t.length := by
  have hjoiner : CodePoint.joiner ∉ t := fun hmem => absurd (h _ hmem) (by decide +kernel)
  have hselector : CodePoint.selector ∉ t := fun hmem => absurd (h _ hmem) (by decide +kernel)
  rw [width_of_not_mem hjoiner hselector, total_columns_of_oneColumn h]

end Text

namespace Fill

theorem length_chosen (fill : Fill) (last : Option CodePoint) (n : Nat) (choices : Choices) :
    (fill.chosen last n choices).1.length = n := by
  induction n generalizing choices with
  | zero => rfl
  | succ n ih => simp only [chosen, List.length_cons, ih]

@[simp] theorem length_text (fill : Fill) (last : Option CodePoint) (n : Nat)
    (choices : Choices) : (fill.text last n choices).1.length = n := by
  rw [text]
  split
  · exact List.length_replicate
  · exact fill.length_chosen last n choices

theorem mem_chosen {fill : Fill} {last : Option CodePoint} {n : Nat} {choices : Choices}
    {c : CodePoint} (h : c ∈ (fill.chosen last n choices).1) :
    ∃ glyph ∈ fill.toList, c = glyph.resolve last := by
  induction n generalizing choices with
  | zero => cases h
  | succ n ih =>
    rw [chosen] at h
    rcases List.mem_cons.mp h with rfl | h
    · exact ⟨_, List.get_mem _ _, rfl⟩
    · exact ih h

theorem mem_text {fill : Fill} {last : Option CodePoint} {n : Nat} {choices : Choices}
    {c : CodePoint} (h : c ∈ (fill.text last n choices).1) :
    ∃ glyph ∈ fill.toList, c = glyph.resolve last := by
  rw [text] at h
  split at h
  · exact ⟨fill.first, List.mem_cons_self, List.eq_of_mem_replicate h⟩
  · exact mem_chosen h

end Fill

namespace Row

theorem map_length_fillGaps (fill : Fill) (before : Segment) (gaps : List (Nat × Segment))
    (choices : Choices) :
    (fillGaps fill before gaps choices).1.map (fun gap => gap.1.length) = gaps.map Prod.fst := by
  induction gaps generalizing before choices with
  | nil => rfl
  | cons gap gaps ih => simp [fillGaps, ih]

theorem mem_of_mem_zip_fillGaps {fill : Fill} {before : Segment} {gaps : List (Nat × Segment)}
    {choices : Choices} {gap : Text × Segment}
    (hgap : gap ∈ ((fillGaps fill before gaps choices).1.map Prod.fst).zip
      (before :: gaps.map Prod.snd)) {c : CodePoint} (hc : c ∈ gap.1) :
    c ∈ fill.toList.map (FillGlyph.resolve gap.2.lastLiteral) := by
  induction gaps generalizing before choices with
  | nil => cases hgap
  | cons first gaps ih =>
    rw [fillGaps, List.map_cons, List.map_cons, List.zip_cons_cons, List.mem_cons] at hgap
    rcases hgap with rfl | hgap
    · obtain ⟨glyph, hglyph, hresolve⟩ := Fill.mem_text hc
      exact List.mem_map.mpr ⟨glyph, hglyph, hresolve.symm⟩
    · exact ih hgap

variable {width : Int} {fill : Fill} {line : Line} {choices : Choices}

theorem map_length_fills_justify (width : Int) (fill : Fill) (line : Line) (choices : Choices) :
    (justify width fill line choices).1.fills.map List.length =
      shares (freeColumns width line) (justify width fill line choices).1.rest.length := by
  have hfst : ((shares (freeColumns width line) line.firstAndRest.2.length).zip
      line.firstAndRest.2).map Prod.fst = shares (freeColumns width line)
        line.firstAndRest.2.length := by
    rw [List.map_fst_zip]
    simp
  have hlengths := map_length_fillGaps fill line.firstAndRest.1
    ((shares (freeColumns width line) line.firstAndRest.2.length).zip line.firstAndRest.2) choices
  have hcount := congrArg List.length hlengths
  rw [hfst] at hlengths hcount
  rw [List.length_map, length_shares] at hcount
  rw [fills, justify, List.map_map, hcount]
  exact hlengths

theorem total_length_fills_justify (h : (justify width fill line choices).1.rest ≠ []) :
    total ((justify width fill line choices).1.fills.map List.length) =
      freeColumns width line := by
  rw [map_length_fills_justify, total_shares _ (by simpa using h)]

theorem mem_of_mem_zip_justify {gap : Text × Segment}
    (hgap : gap ∈ (justify width fill line choices).1.fills.zip
      (justify width fill line choices).1.segments) {c : CodePoint} (hc : c ∈ gap.1) :
    c ∈ fill.toList.map (FillGlyph.resolve gap.2.lastLiteral) := by
  rw [segments, justify, map_snd_fillGaps] at hgap
  exact mem_of_mem_zip_fillGaps hgap hc

theorem mem_fills_justify {text : Text} (htext : text ∈ (justify width fill line choices).1.fills)
    {c : CodePoint} (hc : c ∈ text) :
    ∃ segment ∈ (justify width fill line choices).1.segments, ∃ glyph ∈ fill.toList,
      c = glyph.resolve segment.lastLiteral := by
  have hlength : (justify width fill line choices).1.fills.length ≤
      (justify width fill line choices).1.segments.length := by
    simp [fills, segments]
  rw [← List.map_fst_zip hlength] at htext
  obtain ⟨gap, hgap, rfl⟩ := List.mem_map.mp htext
  obtain ⟨glyph, hglyph, hresolve⟩ := List.mem_map.mp (mem_of_mem_zip_justify hgap hc)
  exact ⟨gap.2, (List.of_mem_zip hgap).2, glyph, hglyph, hresolve.symm⟩

def contentWidth (row : Row) : Nat :=
  total (row.segments.map Segment.width)

def filledWidth (row : Row) : Nat :=
  total (row.fills.map Text.width)

/-- The row reaches over a width exactly, unless its segments alone are wider. -/
def Spans (width : Int) (row : Row) : Prop :=
  ((row.contentWidth + row.filledWidth : Nat) : Int) = max width row.contentWidth

instance (width : Int) (row : Row) : Decidable (row.Spans width) :=
  inferInstanceAs (Decidable (_ = _))

theorem contentWidth_justify (width : Int) (fill : Fill) (line : Line) (choices : Choices) :
    (justify width fill line choices).1.contentWidth = line.width := by
  rw [contentWidth, segments_justify, Line.width]

/-- A row with gaps reaches over the width exactly if its fills are as wide as they are long. -/
theorem spans_justify_iff (h : (justify width fill line choices).1.rest ≠ []) :
    (justify width fill line choices).1.Spans width ↔
      (justify width fill line choices).1.filledWidth =
        total ((justify width fill line choices).1.fills.map List.length) := by
  rw [total_length_fills_justify h, freeColumns, Spans, contentWidth_justify]
  omega

theorem filledWidth_of_oneColumn {row : Row} (h : ∀ text ∈ row.fills, ∀ c ∈ text,
    c.columns? = some 1) : row.filledWidth = total (row.fills.map List.length) := by
  rw [filledWidth, List.map_congr_left fun text htext => Text.width_of_oneColumn (h text htext)]

end Row

theorem Drawing.exists_justify_eq_finishLine (width : Int) (drawing : Drawing) :
    ∃ line choices, (drawing.finishLine width).1 =
      (Row.justify width (drawing.finishLine width).2.fill line choices).1 :=
  ⟨_, _, rfl⟩

namespace Rendering

variable {width : Int} {choices : Choices} {markup : Text} {row : Row} {after : Drawing}

/--
A line with gaps spans the terminal exactly if its fills are as wide as they are long. They are if
every glyph of the fill takes one column, and so does the literal character that one repeats.
-/
theorem spans_of_oneColumn_fill
    (hline : Event.line row after ∈ (ofMarkup width choices markup).events)
    (hgaps : row.rest ≠ []) :
    (row.Spans width ↔ row.filledWidth = total (row.fills.map List.length)) ∧
      ((∀ glyph ∈ after.fill.toList, ∀ segment ∈ row.segments,
        (glyph.resolve segment.lastLiteral).columns? = some 1) → row.Spans width) := by
  obtain ⟨drawing, hfinish⟩ := exists_finishLine_of_mem_events hline
  obtain ⟨line, choices, hrow⟩ := drawing.exists_justify_eq_finishLine width
  rw [hfinish] at hrow
  obtain rfl : row = (Row.justify width after.fill line choices).1 := hrow
  have hiff := Row.spans_justify_iff hgaps
  refine ⟨hiff, fun hfill => hiff.mpr (Row.filledWidth_of_oneColumn ?_)⟩
  intro text htext c hc
  obtain ⟨segment, hsegment, glyph, hglyph, rfl⟩ := Row.mem_fills_justify htext hc
  exact hfill glyph hglyph segment hsegment

theorem spans_of_oneColumn_fill_dashes :
    let markup : Text := "F(-,#)\"ab\"*\"cd\"*\"e\""
    let last := (steps 11 (.start (.cycle [0, 1])) (Lexing.ofMarkup markup).tokens).2.finishLine 11
    last.1.fills = [(['-', 'b', '-'] : Text), (['d', '-', 'd'] : Text)] ∧ last.1.Spans 11 := by
  intro markup last
  have hlexed : (Lexing.ofMarkup markup).error = none := by decide +kernel
  have hline := finishLine_mem_events 11 (.cycle [0, 1]) hlexed
  have hgaps : last.1.rest ≠ [] := by decide +kernel
  have hcolumns : ∀ glyph ∈ last.2.fill.toList, ∀ segment ∈ last.1.segments,
      (glyph.resolve segment.lastLiteral).columns? = some 1 := by decide +kernel
  exact ⟨by decide +kernel, (spans_of_oneColumn_fill hline hgaps).2 hcolumns⟩

/-- Eight free columns are filled with eight glyphs of two columns each. -/
theorem not_forall_spans :
    ¬ ∀ (width : Int) (choices : Choices) (markup : Text) (row : Row) (after : Drawing),
      (ofMarkup width choices markup).error = none →
      Event.line row after ∈ (ofMarkup width choices markup).events → row.rest ≠ [] →
      row.Spans width := by
  intro hspans
  have hlexed : (Lexing.ofMarkup "F(65e5)\"a\"*\"b\"").error = none := by decide +kernel
  have hline := finishLine_mem_events 10 (.cycle [0]) hlexed
  have hrendered : (ofMarkup 10 (.cycle [0]) "F(65e5)\"a\"*\"b\"").error = none := by
    decide +kernel
  exact absurd (hspans _ _ _ _ _ hrendered hline (by decide +kernel)) (by decide +kernel)

end Rendering

end ShellPrompt
