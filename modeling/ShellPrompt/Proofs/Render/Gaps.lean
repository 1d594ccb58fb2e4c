import ShellPrompt.Proofs.Render.Justified
/-!
How the gaps of a line share its free columns. Main statement: the gaps get as many glyphs together
as there are free columns, from left to right never more and at most one fewer, and each gap gets
glyphs of its own resolved fill (`Row.gaps_share_columns`).
-/

set_option autoImplicit false

namespace ShellPrompt

theorem pairwise_shares (n count : Nat) : (shares n count).Pairwise (· ≥ ·) := by
  rw [shares, List.pairwise_map]
  refine List.pairwise_lt_range.imp ?_
  intro i j hless
  split <;> split <;> omega

theorem le_add_one_of_mem_shares {n count a b : Nat} (ha : a ∈ shares n count)
    (hb : b ∈ shares n count) : a ≤ b + 1 := by
  obtain ⟨i, -, rfl⟩ := List.mem_map.mp ha
  obtain ⟨j, -, rfl⟩ := List.mem_map.mp hb
  split <;> split <;> omega

theorem Text.columns?_of_width_singleton {c : CodePoint} (h : Text.width [c] = 1) :
    c.columns? = some 1 := by
  by_cases hjoiner : c = CodePoint.joiner
  · rw [hjoiner] at h
    exact absurd h (by decide)
  · cases hcolumns : c.columns? with
    | none => simp [width, columnsAfter?, hjoiner, hcolumns, CodePoint.columns] at h
    | some n => simpa [width, columnsAfter?, hjoiner, hcolumns] using h

namespace ShellMode

@[simp] theorem protect_nil (mode : ShellMode) : mode.protect [] = [] := by
  cases mode <;> rfl

end ShellMode

namespace Row

theorem written_eq_flatMap_zip (mode : ShellMode) (row : Row) :
    row.written mode = (row.segments.zip (row.fills ++ [[]])).flatMap fun (segment, fill) =>
      segment.written mode ++ mode.protect fill := by
  rcases row with ⟨first, rest⟩
  rw [written, segments, fills]
  induction rest generalizing first with
  | nil => simp
  | cons gap rest ih =>
    have hrest := ih gap.2
    simp only [List.map_cons, List.cons_append, List.zip_cons_cons, List.flatMap_cons,
      List.append_assoc] at hrest ⊢
    rw [hrest]

section Justified

variable (width : Int) (fill : Fill) (line : Line) (choices : Choices)

theorem length_rest_justify :
    (justify width fill line choices).1.rest.length = line.finished.length := by
  have hlength := congrArg List.length (segments_justify width fill line choices)
  simpa [segments, Line.segments] using hlength

theorem length_fills_justify :
    (justify width fill line choices).1.fills.length = line.finished.length := by
  rw [fills, List.length_map, length_rest_justify]

theorem freeColumns_eq_max :
    ((freeColumns width line : Nat) : Int) = max (width - line.width) 0 := by
  rw [freeColumns]
  omega

theorem zip_fills_segments :
    (justify width fill line choices).1.fills.zip (justify width fill line choices).1.segments =
      (justify width fill line choices).1.fills.zip line.finished := by
  have hzip : ((justify width fill line choices).1.fills ++ []).zip
      (line.finished ++ [line.current]) =
        (justify width fill line choices).1.fills.zip line.finished ++ [].zip [line.current] :=
    List.zip_append (length_fills_justify width fill line choices)
  rw [List.append_nil, List.zip_nil_left, List.append_nil] at hzip
  rw [segments_justify, Line.segments, hzip]

end Justified

/--
A line with gaps keeps its segments in order and is written with the fills between them. The numbers
of glyphs in the gaps add up to the free columns, never increase from left to right and differ by one
at most. Each glyph of a gap is one of the fill, where `#` is resolved after the segment before the
gap; and if all these take one column, segments and fills together are as wide as they should be.
-/
theorem gaps_share_columns (width : Int) (fill : Fill) (line : Line) (choices : Choices)
    (h : line.finished ≠ []) :
    let row := (justify width fill line choices).1
    let counts := row.fills.map List.length
    row.segments = line.segments ∧ row.fills.length = line.finished.length ∧
    (∀ mode, row.written mode = (line.segments.zip (row.fills ++ [[]])).flatMap
      fun (segment, fill) => segment.written mode ++ mode.protect fill) ∧
    (total counts : Int) = max (width - line.width) 0 ∧
    counts.Pairwise (· ≥ ·) ∧ (∀ a ∈ counts, ∀ b ∈ counts, a ≤ b + 1) ∧
    (∀ gap ∈ row.fills.zip line.finished, ∀ c ∈ gap.1,
      c ∈ fill.toList.map (FillGlyph.resolve gap.2.lastLiteral)) ∧
    ((∀ segment ∈ line.finished, ∀ c ∈ fill.toList.map (FillGlyph.resolve segment.lastLiteral),
        Text.width [c] = 1) →
      ((line.width + total (row.fills.map Text.width) : Nat) : Int) = max width line.width) := by
  intro row counts
  have hsegments : row.segments = line.segments := segments_justify width fill line choices
  have hcounts : counts = shares (freeColumns width line) row.rest.length :=
    map_length_fills_justify width fill line choices
  have hgaps : row.rest ≠ [] := by
    rw [← List.length_pos_iff, length_rest_justify, List.length_pos_iff]
    exact h
  have htotal : total counts = freeColumns width line := total_length_fills_justify hgaps
  have hglyphs : ∀ gap ∈ row.fills.zip line.finished, ∀ c ∈ gap.1,
      c ∈ fill.toList.map (FillGlyph.resolve gap.2.lastLiteral) := by
    intro gap hgap c hc
    rw [← zip_fills_segments] at hgap
    exact mem_of_mem_zip_justify hgap hc
  refine ⟨hsegments, length_fills_justify width fill line choices, ?_, ?_, ?_, ?_, hglyphs, ?_⟩
  · intro mode
    rw [← hsegments]
    exact written_eq_flatMap_zip mode row
  · rw [htotal, freeColumns_eq_max]
  · rw [hcounts]
    exact pairwise_shares _ _
  · rw [hcounts]
    intro a ha b hb
    exact le_add_one_of_mem_shares ha hb
  · intro hcolumns
    have hspans : row.Spans width := by
      refine (spans_justify_iff hgaps).mpr (filledWidth_of_oneColumn ?_)
      intro text htext c hc
      have hlength : row.fills.length ≤ line.finished.length :=
        Nat.le_of_eq (length_fills_justify width fill line choices)
      rw [← List.map_fst_zip hlength] at htext
      obtain ⟨gap, hgap, rfl⟩ := List.mem_map.mp htext
      have hsegment := (List.of_mem_zip hgap).2
      exact Text.columns?_of_width_singleton (hcolumns gap.2 hsegment c (hglyphs gap hgap c hc))
    rw [Spans, contentWidth, hsegments] at hspans
    exact hspans

/-- Eight free columns in three gaps, with glyphs of one column each. -/
theorem gaps_share_columns_three_gaps :
    let line : Line := ⟨[⟨none, [.text ['a'] true]⟩, ⟨some 'a', [.text ['b'] true]⟩,
      ⟨some 'b', [.text ['c'] true]⟩], ⟨some 'c', [.text ['d'] true]⟩⟩
    let row := (justify 12 ⟨.glyph '-', [.repeatLast]⟩ line (.cycle [0, 1])).1
    row.fills = [(['-', 'a', '-'] : Text), (['b', '-', 'b'] : Text), (['-', 'c'] : Text)] ∧
      line.width + total (row.fills.map Text.width) = 12 := by
  intro line row
  obtain ⟨-, -, -, -, -, -, -, hwidth⟩ :=
    gaps_share_columns 12 ⟨.glyph '-', [.repeatLast]⟩ line (.cycle [0, 1]) (by decide)
  have hcolumns : ∀ segment ∈ line.finished, ∀ c ∈ (⟨.glyph '-', [.repeatLast]⟩ : Fill).toList.map
      (FillGlyph.resolve segment.lastLiteral), Text.width [c] = 1 := by decide +kernel
  have hmax : max (12 : Int) line.width = (12 : Nat) := by decide +kernel
  exact ⟨by decide +kernel, Int.ofNat_inj.mp ((hwidth hcolumns).trans hmax)⟩

end Row

end ShellPrompt
