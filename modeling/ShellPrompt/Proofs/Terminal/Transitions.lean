import ShellPrompt.Proofs.Render.Regions
import ShellPrompt.Proofs.Terminal.Screen
/-!
What a terminal shows of a transition. A separator between two backgrounds is drawn in both of them;
it is the glyph at a place that only the symbol, the number of glyphs and the inversion decide.
Main statement: whatever the state before a transition, a terminal that is in its style shows the
separator, and then goes on in the style that the transition leads to (`transition_flows`).
-/

set_option autoImplicit false

namespace ShellPrompt

namespace Separators

variable (separators : Separators) (t : Transition)

/-- 0 where a transition opens and 1 where it closes: the parity of its index, flipped by inversion. -/
def side : Nat :=
  (t.index + if separators.inverted then 1 else 0) % 2

/-- The place of a transition's glyph. Of four glyphs, `<` and `>` have the second two. -/
def place : Nat :=
  (if separators.glyphs.toList.length = 4 ∧ 2 ≤ t.index then 2 else 0) + separators.side t

/-- What a separator is drawn in where a transition leads from one style to another. -/
def appearance (old target : Style) : Style :=
  if target.background = old.background then old
  else if separators.side t = 0 then
    ⟨target.background, old.background, old.bold, old.italic⟩
  else ⟨old.background, target.background, old.bold, old.italic⟩

/--
The style after a transition: its target, but after a separator between two backgrounds with the
foreground of the spec or none, unless a region ends.
-/
def settled (spec : Option Spec) (old target : Style) : Style :=
  if t ≠ .pop ∧ separators.glyphs ≠ .none ∧ target.background ≠ old.background then
    { target with foreground := (spec.bind Spec.foreground).getD .default }
  else target

theorem closes_eq_true_iff : separators.closes t = true ↔ separators.side t = 1 := by
  rcases separators with ⟨glyphs, inverted⟩
  cases inverted <;> cases t <;> simp [closes, side, Transition.index]

theorem closes_eq_false_iff : separators.closes t = false ↔ separators.side t = 0 := by
  rcases separators with ⟨glyphs, inverted⟩
  cases inverted <;> cases t <;> simp [closes, side, Transition.index]

theorem glyph?_eq_getElem? :
    separators.glyph? t = separators.glyphs.toList[separators.place t]? := by
  rcases separators with ⟨glyphs, inverted⟩
  cases glyphs <;> cases inverted <;> cases t <;>
    simp [glyph?, closes, place, side, GlyphSet.pair?, GlyphSet.toList, Transition.index]

theorem glyph?_eq_none_iff : separators.glyph? t = none ↔ separators.glyphs = .none := by
  rcases separators with ⟨glyphs, inverted⟩
  cases glyphs <;> cases t <;> simp [glyph?, GlyphSet.pair?]

theorem settled_of_not {spec : Option Spec} {old target : Style}
    (h : t = .pop ∨ separators.glyphs = .none ∨ target.background = old.background) :
    separators.settled t spec old target = target := by
  rw [settled, if_neg]
  rintro ⟨hpop, hglyphs, hbackground⟩
  rcases h with h | h | h
  · exact hpop h
  · exact hglyphs h
  · exact hbackground h

theorem bold_appearance (old target : Style) :
    (separators.appearance t old target).bold = old.bold := by
  rw [appearance]
  split
  · rfl
  · split <;> rfl

theorem italic_appearance (old target : Style) :
    (separators.appearance t old target).italic = old.italic := by
  rw [appearance]
  split
  · rfl
  · split <;> rfl

theorem bold_settled (spec : Option Spec) (old target : Style) :
    (separators.settled t spec old target).bold = target.bold := by
  rw [settled]
  split <;> rfl

theorem italic_settled (spec : Option Spec) (old target : Style) :
    (separators.settled t spec old target).italic = target.italic := by
  rw [settled]
  split <;> rfl

theorem reachable_separatorStyle {old target : Style} (h : target.background ≠ old.background) :
    old.reachable (Drawing.separatorStyle (separators.closes t) old target) =
      separators.appearance t old target := by
  have hreachable : old.reachable (Drawing.separatorStyle (separators.closes t) old target) =
      Drawing.separatorStyle (separators.closes t) old target := Style.reachable_eq_self id id
  rw [hreachable, appearance, if_neg h]
  cases hcloses : separators.closes t with
  | true =>
    have hside := (separators.closes_eq_true_iff t).mp hcloses
    rw [if_neg (by omega)]
    rfl
  | false =>
    have hside := (separators.closes_eq_false_iff t).mp hcloses
    rw [if_pos hside]
    rfl

end Separators

theorem Style.bold_afterSpec {style : Style} (spec : Option Spec) (h : style.bold = true) :
    (style.afterSpec spec).bold = true := by
  cases spec with
  | none => exact h
  | some spec => simp [afterSpec, apply, h]

theorem Style.italic_afterSpec {style : Style} (spec : Option Spec) (h : style.italic = true) :
    (style.afterSpec spec).italic = true := by
  cases spec with
  | none => exact h
  | some spec => simp [afterSpec, apply, h]

namespace Drawing

variable (drawing : Drawing) (t : Transition) (spec : Option Spec)

theorem destination_fst :
    (drawing.destination t spec).1 =
      (if t = .pop then drawing.stack.head?.getD .plain else drawing.style).afterSpec spec := by
  cases t with
  | pop => rw [destination_pop, if_pos rfl]
  | push | opening | closing => rfl

theorem exists_leads_separate (target : Style) :
    ∃ pieces, drawing.Leads (drawing.separate t spec target).1 pieces
        ((drawing.separators.glyph? t).map fun glyph =>
          (glyph, drawing.separators.appearance t drawing.style target)).toList ∧
      (drawing.separate t spec target).1.style.bold = drawing.style.bold ∧
      (drawing.separate t spec target).1.style.italic = drawing.style.italic ∧
      (drawing.separate t spec target).2 =
        drawing.separators.settled t spec drawing.style target := by
  rw [separate]
  cases hglyph : drawing.separators.glyph? t with
  | none =>
    have hnone := (drawing.separators.glyph?_eq_none_iff t).mp hglyph
    refine ⟨[], leads_refl rfl rfl, rfl, rfl, ?_⟩
    exact (drawing.separators.settled_of_not t (Or.inr (Or.inl hnone))).symm
  | some glyph =>
    have hsome : drawing.separators.glyphs ≠ .none := by
      intro hnone
      rw [(drawing.separators.glyph?_eq_none_iff t).mpr hnone] at hglyph
      cases hglyph
    by_cases hbackground : target.background = drawing.style.background
    · have happearance : drawing.separators.appearance t drawing.style target = drawing.style := by
        rw [Separators.appearance, if_pos hbackground]
      simp only [if_pos hbackground, Option.map_some, Option.toList_some, happearance]
      refine ⟨_, drawing.leads_text glyph false, rfl, rfl, ?_⟩
      exact (drawing.separators.settled_of_not t (Or.inr (Or.inr hbackground))).symm
    · simp only [if_neg hbackground, Option.map_some, Option.toList_some]
      have hstyle := drawing.separators.reachable_separatorStyle t hbackground
      obtain ⟨pieces, hchange, -⟩ := drawing.exists_leads_changeStyle
        (separatorStyle (drawing.separators.closes t) drawing.style target)
      have htext := leads_text (drawing.changeStyle
        (separatorStyle (drawing.separators.closes t) drawing.style target)) glyph false
      have hcolors : (drawing.changeStyle
          (separatorStyle (drawing.separators.closes t) drawing.style target)).style =
            drawing.separators.appearance t drawing.style target := hstyle
      rw [hcolors] at htext
      refine ⟨_, hchange.trans htext, ?_, ?_, ?_⟩
      · exact (congrArg Style.bold hcolors).trans (Separators.bold_appearance ..)
      · exact (congrArg Style.italic hcolors).trans (Separators.italic_appearance ..)
      · by_cases hpop : t = .pop
        · rw [if_pos hpop, Separators.settled_of_not _ _ (Or.inl hpop)]
        · rw [if_neg hpop, Separators.settled, if_pos ⟨hpop, hsome, hbackground⟩]

/-- After its separator a transition goes on in the settled style, behind a reset at a region's end. -/
theorem exists_leads_transition :
    let target := (if t = .pop then drawing.stack.head?.getD .plain else drawing.style).afterSpec spec
    ∃ front back : List Piece,
      drawing.Leads (drawing.transition t spec)
        (front ++ (if t = .pop then [.escape [Style.resetCode]] else []) ++ back)
        ((drawing.separators.glyph? t).map fun glyph =>
          (glyph, drawing.separators.appearance t drawing.style target)).toList ∧
      back.flatMap Piece.visible = [] ∧
      (drawing.transition t spec).style =
        drawing.separators.settled t spec drawing.style target := by
  intro target
  have htarget : (drawing.destination t spec).1 = target := drawing.destination_fst t spec
  let entered : Drawing := { drawing with stack := (drawing.destination t spec).2 }
  have hentered : drawing.Leads entered [] [] := leads_refl rfl rfl
  obtain ⟨front, hfront, hbold, hitalic, hsettled⟩ := entered.exists_leads_separate t spec target
  by_cases hpop : t = .pop
  · have htransition : drawing.transition t spec =
        (entered.separate t spec target).1.reset.changeStyle
          (entered.separate t spec target).2 := by
      simp only [transition, htarget, if_pos hpop]
      rfl
    obtain ⟨back, hback, hvisible⟩ := (entered.separate t spec target).1.reset.exists_leads_changeStyle
      (entered.separate t spec target).2
    refine ⟨front, back, ?_, hvisible, ?_⟩
    · have hwhole := ((hentered.trans hfront).trans (leads_reset _)).trans hback
      rw [htransition, if_pos hpop]
      simpa using hwhole
    · rw [htransition, style_changeStyle_reset, hsettled]
  · have htransition : drawing.transition t spec =
        (entered.separate t spec target).1.changeStyle (entered.separate t spec target).2 := by
      simp only [transition, htarget, if_neg hpop]
      rfl
    obtain ⟨back, hback, hvisible⟩ := (entered.separate t spec target).1.exists_leads_changeStyle
      (entered.separate t spec target).2
    refine ⟨front, back, ?_, hvisible, ?_⟩
    · have hwhole := (hentered.trans hfront).trans hback
      rw [htransition, if_neg hpop]
      simpa using hwhole
    · have hstyle : target = drawing.style.afterSpec spec := by
        simp only [target, if_neg hpop]
      -- What was bold or italic before is so in the target, so no reset is needed to reach it.
      rw [htransition, hsettled]
      refine Style.reachable_eq_self ?_ ?_
      · rw [hbold, Separators.bold_settled, hstyle]
        exact Style.bold_afterSpec spec
      · rw [hitalic, Separators.italic_settled, hstyle]
        exact Style.italic_afterSpec spec

end Drawing

/--
Whatever was drawn before, let a terminal be in the style of the drawing when a transition comes. Its
target is the style that it goes back to or the current one, with its spec. Without separators the
terminal shows no text; else it shows the glyph at the transition's place, in the current style or in
the two backgrounds. It ends in the settled style, which the drawing has too. Where a region ends, a
reset follows the glyph, and only then are the colors of the target set.
-/
theorem transition_flows (drawing : Drawing) (t : Transition) (spec : Option Spec) :
    let old := drawing.style
    let separators := drawing.separators
    let target := (if t = .pop then drawing.stack.head?.getD .plain else old).afterSpec spec
    let glyph? := separators.glyphs.toList[separators.place t]?
    let next := drawing.transition t spec
    (glyph? = none ↔ separators.glyphs = .none) ∧
    ∃ front back : List Piece,
      let reset := if t = .pop then [Piece.escape [Style.resetCode]] else []
      let pieces := front ++ reset ++ back
      next.line = pieces.foldl Line.draw drawing.line ∧
      pieces.foldlM Screen.receive? ⟨[], old⟩ = some
        ⟨(glyph?.map fun glyph => (glyph, separators.appearance t old target)).toList,
          separators.settled t spec old target⟩ ∧
      back.flatMap Piece.visible = [] ∧
      next.style = separators.settled t spec old target := by
  intro old separators target glyph? next
  have hglyph : separators.glyph? t = glyph? := separators.glyph?_eq_getElem? t
  obtain ⟨front, back, hleads, hvisible, hstyle⟩ := drawing.exists_leads_transition t spec
  refine ⟨?_, front, back, hleads.line, ?_, hvisible, hstyle⟩
  · rw [← hglyph]
    exact separators.glyph?_eq_none_iff t
  · have hshown := hleads.shown []
    rw [List.nil_append, hstyle] at hshown
    rw [← hglyph]
    exact hshown

end ShellPrompt
