import Mathlib.Data.List.InsertIdx
import ShellPrompt.Proofs.Terminal.Screen
import ShellPrompt.Proofs.Terminal.Tracking
/-!
How little a change of style costs. The codes from one style to another are one for each thing that
differs, and no code changes more than one thing unless it is a reset, so none of them can be left
out. Every escape sequence of a rendering is a reset or such a change of what the terminal shows at
that point. Main statement: the codes of a change lead exactly to the style to be reached and are
all needed, in every change on its own and at every point of every rendering
(`changes_exact_and_needed`).
-/

set_option autoImplicit false

namespace ShellPrompt

/-- What is sent for codes: one sequence, or nothing if there are none. -/
def sequencesOf (codes : List Text) : List Text :=
  if codes = [] then [] else [escapeSequence codes]

/--
The codes lead a terminal exactly from one style to the other, without a reset. None of them can be
left out, and none of them sets what the terminal shows already.
-/
structure Style.IsExactChange (style target : Style) (codes : List Text) : Prop where
  nonempty : codes ≠ []
  ends : style.afterSequences? [escapeSequence codes] = some target
  needed : ∀ place < codes.length, ∃ other,
    style.afterSequences? (sequencesOf (codes.eraseIdx place)) = some other ∧ other ≠ target
  fresh : ∀ code ∈ codes, ∃ other,
    style.afterSequences? [escapeSequence [code]] = some other ∧ other ≠ style
  unreset : resetCode ∉ codes

/-- Each sequence is a reset or an exact change of what a terminal shows when the sequence comes. -/
def Style.AreSparing : Style → List Text → Prop
  | _, [] => True
  | style, t :: rest => ∃ next : Style, style.afterSequences? [t] = some next ∧
      (t = escapeSequence [resetCode] ∨
        ∃ codes, t = escapeSequence codes ∧ style.IsExactChange next codes) ∧
      next.AreSparing rest

theorem Order.eq_of_code_eq {order order' : Order} (h : order.code = order'.code) :
    order = order' := by
  have hread := ofSequence?_escapeSequence (List.cons_ne_nil order [])
  have hread' := ofSequence?_escapeSequence (List.cons_ne_nil order' [])
  rw [List.map_cons, h, List.map_nil] at hread
  rw [List.map_cons, List.map_nil, hread] at hread'
  exact List.singleton_inj.mp (Option.some.inj hread')

namespace Style

variable {style target : Style} {order : Order} {orders : List Order}

theorem reset_not_mem_ordersTo (style target : Style) : Order.reset ∉ style.ordersTo target := by
  simp [ordersTo]

theorem obey_ne_of_mem_ordersTo (h : order ∈ style.ordersTo target) :
    style.obey order ≠ style := by
  intro hsame
  simp only [ordersTo, List.mem_append, List.mem_ite_nil_right, List.mem_ite_nil_left,
    List.mem_singleton, Bool.and_eq_true, Bool.not_eq_true'] at h
  rcases h with ((⟨hnew, rfl⟩ | ⟨hnew, rfl⟩) | ⟨hnew, rfl⟩) | ⟨hnew, rfl⟩
  · have hbold : true = style.bold := congrArg Style.bold hsame
    rw [hnew.2] at hbold
    cases hbold
  · have hitalic : true = style.italic := congrArg Style.italic hsame
    rw [hnew.2] at hitalic
    cases hitalic
  · have hforeground := congrArg Style.foreground hsame
    exact hnew hforeground
  · have hbackground := congrArg Style.background hsame
    exact hnew hbackground

theorem length_ordersTo (style target : Style) :
    (style.ordersTo target).length =
      (target.bold && !style.bold).toNat + (target.italic && !style.italic).toNat +
        (target.foreground != style.foreground).toNat +
        (target.background != style.background).toNat := by
  have hattribute : ∀ (on : Bool) (order : Order),
      (if on then [order] else []).length = on.toNat := by
    intro on order
    cases on <;> rfl
  have hcolor : ∀ (c c' : Color) (order : Order),
      (if c = c' then [] else [order]).length = (c != c').toNat := by
    intro c c' order
    by_cases h : c = c'
    · simp [h]
    · have hne : (c != c') = true := bne_iff_ne.mpr h
      simp [h, hne]
  rw [ordersTo, List.length_append, List.length_append, List.length_append, hattribute,
    hattribute, hcolor, hcolor]

theorem length_ordersTo_le_obey (style : Style) (h : order ≠ .reset) (target : Style) :
    (style.ordersTo target).length ≤ ((style.obey order).ordersTo target).length + 1 := by
  rw [length_ordersTo, length_ordersTo]
  cases order with
  | reset => exact absurd rfl h
  | bold =>
    have hbold := Bool.toNat_le (target.bold && !style.bold)
    dsimp only [obey]
    omega
  | italic =>
    have hitalic := Bool.toNat_le (target.italic && !style.italic)
    dsimp only [obey]
    omega
  | color ground c =>
    cases ground with
    | foreground =>
      have hforeground := Bool.toNat_le (target.foreground != style.foreground)
      dsimp only [obey]
      omega
    | background =>
      have hbackground := Bool.toNat_le (target.background != style.background)
      dsimp only [obey]
      omega

theorem length_ordersTo_foldl_obey_le (style : Style) (h : Order.reset ∉ orders) :
    (style.ordersTo (orders.foldl obey style)).length ≤ orders.length := by
  induction orders generalizing style with
  | nil => simp [ordersTo_self]
  | cons order orders ih =>
    rw [List.mem_cons, not_or] at h
    have hrest := ih (style.obey order) h.2
    have hstep := length_ordersTo_le_obey style (Ne.symm h.1)
      (orders.foldl obey (style.obey order))
    rw [List.foldl_cons, List.length_cons]
    omega

theorem foldl_obey_eraseIdx_ne {place : Nat} (h : place < (style.ordersTo target).length) :
    ((style.ordersTo target).eraseIdx place).foldl obey style ≠ style.reachable target := by
  intro hreached
  have hreset : Order.reset ∉ (style.ordersTo target).eraseIdx place := by
    intro hmem
    exact reset_not_mem_ordersTo style target (List.mem_of_mem_eraseIdx hmem)
  have hlength := length_ordersTo_foldl_obey_le style hreset
  rw [hreached, ordersTo_reachable, List.length_eraseIdx_of_lt h] at hlength
  omega

theorem afterSequences?_sequencesOf (style : Style) (orders : List Order) :
    style.afterSequences? (sequencesOf (orders.map Order.code)) =
      some (orders.foldl obey style) := by
  by_cases h : orders = []
  · subst h
    rfl
  · rw [sequencesOf, if_neg (by simpa using h), afterSequences?_escapeSequence style h]

theorem isExactChange_codesTo (h : style.codesTo target ≠ []) :
    style.IsExactChange (style.reachable target) (style.codesTo target) := by
  rw [codesTo_eq_map_code] at h ⊢
  have horders : style.ordersTo target ≠ [] := by simpa using h
  constructor
  case nonempty => exact h
  case ends => rw [afterSequences?_escapeSequence style horders, foldl_obey_ordersTo]
  case needed =>
    intro place hplace
    rw [List.length_map] at hplace
    rw [List.eraseIdx_map, afterSequences?_sequencesOf]
    exact ⟨_, rfl, foldl_obey_eraseIdx_ne hplace⟩
  case fresh =>
    intro code hcode
    obtain ⟨order, horder, rfl⟩ := List.mem_map.mp hcode
    have hone : style.afterSequences? [escapeSequence [order.code]] = some (style.obey order) :=
      afterSequences?_escapeSequence style (List.cons_ne_nil order [])
    exact ⟨_, hone, obey_ne_of_mem_ordersTo horder⟩
  case unreset =>
    intro hcode
    obtain ⟨order, horder, heq⟩ := List.mem_map.mp hcode
    have hreset : order = .reset := Order.eq_of_code_eq heq
    rw [hreset] at horder
    exact reset_not_mem_ordersTo style target horder

theorem AreSparing.append {next : Style} {sequences more : List Text}
    (h : style.AreSparing sequences) (hnext : style.afterSequences? sequences = some next)
    (hmore : next.AreSparing more) : style.AreSparing (sequences ++ more) := by
  induction sequences generalizing style with
  | nil =>
    cases hnext
    exact hmore
  | cons t sequences ih =>
    obtain ⟨between, hbetween, hchange, hrest⟩ := h
    have hafter : between.afterSequences? sequences = some next := by
      rwa [← List.singleton_append, afterSequences?_append, hbetween] at hnext
    exact ⟨between, hbetween, hchange, ih hrest hafter⟩

theorem areSparing_reset (style : Style) : style.AreSparing [escapeSequence [resetCode]] := by
  have hreset : style.afterSequences? [escapeSequence [resetCode]] = some plain :=
    afterSequences?_escapeSequence style (List.cons_ne_nil Order.reset [])
  exact ⟨plain, hreset, Or.inl rfl, trivial⟩

theorem areSparing_codesTo (h : style.codesTo target ≠ []) :
    style.AreSparing [escapeSequence (style.codesTo target)] := by
  have hexact := isExactChange_codesTo h
  exact ⟨_, hexact.ends, Or.inr ⟨_, rfl, hexact⟩, trivial⟩

theorem areSparing_flatMap_sequences {mode : ShellMode} {rows : List Row}
    (h : ∀ row ∈ rows, plain.AreSparing (row.sequences mode) ∧
      plain.afterSequences? (row.sequences mode) = some plain) :
    plain.AreSparing (rows.flatMap (Row.sequences mode)) := by
  induction rows with
  | nil => trivial
  | cons row rows ih =>
    obtain ⟨hsparing, hplain⟩ := h row (by simp)
    have hrest := ih fun row hrow => h row (List.mem_cons_of_mem _ hrow)
    rw [List.flatMap_cons]
    exact hsparing.append hplain hrest

end Style

/-- Along every line that is drawn, each escape sequence is a reset or an exact change. -/
theorem isKept_areSparing (mode : ShellMode) :
    IsKept fun line style => Drawn line style ∧ Style.plain.AreSparing (line.sequences mode) where
  start := ⟨Drawn.start, trivial⟩
  text := by
    rintro line style ⟨hdrawn, hsparing⟩ t literal
    refine ⟨Drawn.isKept.text hdrawn t literal, ?_⟩
    simpa using hsparing
  reset := by
    rintro line style ⟨hdrawn, hsparing⟩
    refine ⟨Drawn.isKept.reset hdrawn, ?_⟩
    rw [Line.sequences_draw, Piece.sequence?_escape]
    exact hsparing.append (hdrawn.afterSequences? mode) (Style.areSparing_reset style)
  change := by
    rintro line style ⟨hdrawn, hsparing⟩ target hne
    refine ⟨Drawn.isKept.change hdrawn target hne, ?_⟩
    rw [Line.sequences_draw, Piece.sequence?_escape]
    exact hsparing.append (hdrawn.afterSequences? mode) (Style.areSparing_codesTo hne)
  startSegment := by
    rintro line style ⟨hdrawn, hsparing⟩
    refine ⟨Drawn.isKept.startSegment hdrawn, ?_⟩
    rwa [Line.sequences_startSegment]

namespace Drawing

theorem changeStyle_eq_or_isExactChange (drawing : Drawing) (target : Style) :
    drawing.changeStyle target = drawing ∨ ∃ codes,
      (drawing.changeStyle target).line = drawing.line.draw (.escape codes) ∧
        drawing.style.IsExactChange (drawing.changeStyle target).style codes := by
  rcases drawing.changeStyle_eq_or_codesTo target with hsame | ⟨hcodes, hchange⟩
  · exact Or.inl hsame
  · have hexact := Style.isExactChange_codesTo hcodes
    rw [Style.reachable_reachable] at hexact
    rw [hchange]
    exact Or.inr ⟨_, rfl, hexact⟩

theorem changeStyle_self (drawing : Drawing) : drawing.changeStyle drawing.style = drawing := by
  rcases drawing.changeStyle_eq_or_codesTo drawing.style with hsame | ⟨hcodes, -⟩
  · exact hsame
  · have hself : drawing.style.reachable drawing.style = drawing.style :=
      Style.reachable_eq_self id id
    rw [hself] at hcodes
    exact absurd (Style.codesTo_eq_nil_iff.mpr hself.symm) hcodes

theorem apply_spec_apply_spec (drawing : Drawing) (spec : Spec) :
    (drawing.apply (.spec spec)).apply (.spec spec) = drawing.apply (.spec spec) := by
  have hstyle : (drawing.apply (.spec spec)).style = drawing.style.apply spec :=
    Style.reachable_eq_self (by simp +contextual [Style.apply]) (by simp +contextual [Style.apply])
  have htwice : (drawing.style.apply spec).apply spec = drawing.style.apply spec := by
    rcases spec with ⟨foreground, background, bold, italic⟩
    cases foreground <;> cases background <;> simp [Style.apply]
  calc (drawing.apply (.spec spec)).apply (.spec spec)
      = (drawing.apply (.spec spec)).changeStyle ((drawing.apply (.spec spec)).style.apply spec) :=
        rfl
    _ = (drawing.apply (.spec spec)).changeStyle (drawing.apply (.spec spec)).style := by
        rw [hstyle, htwice]
    _ = drawing.apply (.spec spec) := changeStyle_self _

end Drawing

/--
Whatever the styles, let the one to be reached have the colors of the target, and bold and italic if
either has them. No code is needed exactly if it is reached already; otherwise the codes, sent as
one sequence, lead a terminal to it, none can be left out, and each sets what is not yet shown. A
change of style draws nothing or such codes, so all along every rendering each escape sequence, on a
line after any number of tokens and in the output, is a reset or such a change. A spec that is
applied twice in a row draws at most one escape sequence.
-/
theorem changes_exact_and_needed :
    (∀ style target : Style,
      let reached : Style := ⟨target.foreground, target.background, style.bold || target.bold,
        style.italic || target.italic⟩
      (style.codesTo target = [] ↔ style = reached) ∧
      (style.codesTo target ≠ [] → style.IsExactChange reached (style.codesTo target))) ∧
    (∀ (drawing : Drawing) (target : Style), let next := drawing.changeStyle target
      next = drawing ∨ ∃ codes, next.line = drawing.line.draw (.escape codes) ∧
        drawing.style.IsExactChange next.style codes) ∧
    (∀ (mode : ShellMode) (width : Int) (choices : Choices) (markup : Text),
      (∀ n, Style.plain.AreSparing ((Rendering.steps width (.start choices)
        ((Lexing.ofMarkup markup).tokens.take n)).2.line.sequences mode)) ∧
      Style.plain.AreSparing
        ((Rendering.ofMarkup width choices markup).pieces.filterMap (Piece.sequence? mode))) ∧
    ∀ (drawing : Drawing) (spec : Spec), let once := drawing.apply (.spec spec)
      once.apply (.spec spec) = once ∧
        (once = drawing ∨ ∃ codes, once.line = drawing.line.draw (.escape codes)) := by
  refine ⟨?differences, Drawing.changeStyle_eq_or_isExactChange, ?renderings, ?specs⟩
  case differences =>
    intro style target reached
    have hreached : reached = style.reachable target := by
      simp only [reached, Style.reachable, Bool.or_comm]
    rw [hreached]
    exact ⟨Style.codesTo_eq_nil_iff, Style.isExactChange_codesTo⟩
  case renderings =>
    intro mode width choices markup
    have hkept := isKept_areSparing mode
    refine ⟨fun n => (hkept.of_steps width choices _).1.2, ?_⟩
    rw [Rendering.filterMap_pieces]
    refine Style.areSparing_flatMap_sequences ?_
    intro row hrow
    obtain ⟨line, ⟨hdrawn, hsparing⟩, hsegments⟩ := hkept.exists_of_mem_rows hrow
    rw [Row.sequences, hsegments]
    exact ⟨hsparing, hdrawn.afterSequences? mode⟩
  case specs =>
    intro drawing spec once
    refine ⟨drawing.apply_spec_apply_spec spec, ?_⟩
    rcases drawing.changeStyle_eq_or_isExactChange (drawing.style.apply spec) with
      hsame | ⟨codes, hline, -⟩
    · exact Or.inl hsame
    · exact Or.inr ⟨codes, hline⟩

/-- Bold and two mixed colors are three codes while italic stays; two lines have nine sequences. -/
theorem changes_exact_and_needed_mixed :
    let style : Style := ⟨.basic .red, .default, false, true⟩
    let target : Style := ⟨.rgb (.ofNumbers 0 1 3), .rgb (.ofNumbers 3 0 1), true, false⟩
    let markup : Text := "S(e0b6,e0b4)b\x7b:r!\"x\"\x7d*|/g\"y\""
    let rendering := Rendering.ofMarkup 10 (.cycle [0]) markup
    let spec : Spec := ⟨some (.basic .green), none, true, false⟩
    let once := (Drawing.start (.cycle [0])).apply (.spec spec)
    (style.codesTo target = (["1", "38;2;0;1;3", "48;2;3;0;1"] : List Text) ∧
      style.IsExactChange ⟨target.foreground, target.background, true, true⟩
        (style.codesTo target)) ∧
    ((rendering.pieces.filterMap (Piece.sequence? .zsh)).length = 9 ∧
      Style.plain.AreSparing (rendering.pieces.filterMap (Piece.sequence? .zsh))) ∧
    (once.line.sequences .raw = (["\x1b[1;32m"] : List Text) ∧
      once.apply (.spec spec) = once) := by
  intro style target markup rendering spec once
  obtain ⟨hstyles, -, hrenderings, hspecs⟩ := changes_exact_and_needed
  have hcodes : style.codesTo target = (["1", "38;2;0;1;3", "48;2;3;0;1"] : List Text) := by
    decide +kernel
  have hne : style.codesTo target ≠ [] := by decide +kernel
  have hnine : (rendering.pieces.filterMap (Piece.sequence? .zsh)).length = 9 := by
    rw [Rendering.filterMap_pieces]
    decide +kernel
  refine ⟨⟨hcodes, ?_⟩, ⟨hnine, ?_⟩, ⟨by decide +kernel, ?_⟩⟩
  · exact (hstyles style target).2 hne
  · exact (hrenderings .zsh 10 (.cycle [0]) markup).2
  · exact (hspecs _ _).1

end ShellPrompt
