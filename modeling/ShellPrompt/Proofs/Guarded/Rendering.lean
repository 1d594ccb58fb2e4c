import ShellPrompt.Render.Renderer
import ShellPrompt.Proofs.Guarded.Lexing
import ShellPrompt.Proofs.Guarded.Lines
import ShellPrompt.Proofs.Render.Run
/-!
Rendering with guards. A separator is looked up by the place of its transition, the number of
separators is asserted where they are taken, and what is drawn goes to the last segment of a line;
all of these are checked. Main statement: `Guarded.render_eq`, no markup leads to a slip.
-/

set_option autoImplicit false

namespace ShellPrompt

namespace Guarded

/-- Whether a transition draws the closing glyph, by its place among the symbols. -/
def closes (separators : Separators) (t : Transition) : Guarded Empty Bool := do
  let place ← placeOf t.symbol symbols
  return (place % 2 == 1) != separators.inverted

/-- The glyph of a transition: the first two are for all, or the last two for `<` and `>`. -/
def glyph? (separators : Separators) (t : Transition) : Guarded Empty (Option Text) :=
  let glyphs := separators.glyphs.toList
  if glyphs.length = 0 then return none
  else do
    let base := if glyphs.length = 4 ∧ t.symbol ∈ (['<', '>'] : Text) then 2 else 0
    let closing ← closes separators t
    let glyph ← element glyphs (base + closing.toNat)
    return some glyph

def draw (drawing : Drawing) (piece : Piece) : Guarded Empty Drawing := do
  let segments := drawing.line.segments
  let current ← element segments (segments.length - 1)
  return { drawing with line := ⟨drawing.line.finished, current.draw piece⟩ }

def changeStyle (drawing : Drawing) (target : Style) : Guarded Empty Drawing := do
  let target := drawing.style.reachable target
  let codes := drawing.style.codesTo target
  let drawing ← if codes.isEmpty then pure drawing else draw drawing (.escape codes)
  return { drawing with style := target }

def reset (drawing : Drawing) : Guarded Empty Drawing := do
  let drawing ← draw drawing (.escape [Style.resetCode])
  return { drawing with style := .plain }

def separate (drawing : Drawing) (t : Transition) (spec : Option Spec) (target : Style) :
    Guarded Empty (Drawing × Style) := do
  match ← glyph? drawing.separators t with
  | none => return (drawing, target)
  | some glyph =>
    if target.background = drawing.style.background then
      return (← draw drawing (.text glyph false), target)
    else
      let closing ← closes drawing.separators t
      let drawing ← changeStyle drawing (Drawing.separatorStyle closing drawing.style target)
      let drawing ← draw drawing (.text glyph false)
      if t = .pop then
        return (drawing, target)
      else
        return (drawing, { target with foreground := (spec.bind Spec.foreground).getD .default })

def transition (drawing : Drawing) (t : Transition) (spec : Option Spec) :
    Guarded Empty Drawing := do
  let (target, stack) := drawing.destination t spec
  let (drawing, target) ← separate { drawing with stack := stack } t spec target
  let drawing ← if t = .pop then reset drawing else pure drawing
  changeStyle drawing target

def apply (drawing : Drawing) : Lexeme → Guarded Empty Drawing
  | .separators separators => do
    require (separators.glyphs.toList.length ∈ [0, 2, 4])
    return { drawing with separators := separators }
  | .fill fill => return { drawing with fill := fill }
  | .segmentBreak => do
    let segments := drawing.line.segments
    let current ← element segments (segments.length - 1)
    return { drawing with line := ⟨segments, .empty current.lastLiteral⟩ }
  | .whitespace t => draw drawing (.text t false)
  | .literal t => draw drawing (.text t true)
  | .lineBreak => return drawing
  | .reset => reset drawing
  | .transition t spec => transition drawing t spec
  | .spec spec => changeStyle drawing (drawing.style.apply spec)

def finishLine (width : Int) (drawing : Drawing) : Guarded Empty (Row × Drawing) := do
  let drawing ← if drawing.style = .plain then pure drawing else reset drawing
  let (row, choices) ← justify width drawing.fill drawing.line drawing.choices
  return (row, { drawing with linesWritten := drawing.linesWritten + 1, choices := choices })

theorem placeOf_symbol (t : Transition) :
    (placeOf t.symbol symbols : Guarded Empty Nat) = .ok t.index := by
  cases t <;> rfl

theorem closes_eq (separators : Separators) (t : Transition) :
    closes separators t = .ok (separators.closes t) := by
  rw [closes, placeOf_symbol]
  rfl

theorem glyph?_eq (separators : Separators) (t : Transition) :
    glyph? separators t = .ok (separators.glyph? t) := by
  obtain ⟨glyphs, inverted⟩ := separators
  rw [glyph?, closes_eq]
  cases glyphs <;> cases t <;> cases inverted <;> rfl

theorem draw_eq (drawing : Drawing) (piece : Piece) :
    draw drawing piece = .ok { drawing with line := drawing.line.draw piece } := by
  have hcurrent : drawing.line.segments[drawing.line.segments.length - 1]? =
      some drawing.line.current := by
    simp [Line.segments]
  rw [draw]
  simp only [element_of_getElem? hcurrent]
  rfl

theorem changeStyle_eq (drawing : Drawing) (target : Style) :
    changeStyle drawing target = .ok (drawing.changeStyle target) := by
  rw [changeStyle, Drawing.changeStyle]
  by_cases hnone : (drawing.style.codesTo (drawing.style.reachable target)).isEmpty = true
  · simp only [if_pos hnone]
    rfl
  · simp only [if_neg hnone, draw_eq]
    rfl

theorem reset_eq (drawing : Drawing) : reset drawing = .ok drawing.reset := by
  rw [reset, draw_eq]
  rfl

theorem separate_eq (drawing : Drawing) (t : Transition) (spec : Option Spec) (target : Style) :
    separate drawing t spec target = .ok (drawing.separate t spec target) := by
  rw [separate, Drawing.separate, glyph?_eq]
  cases drawing.separators.glyph? t with
  | none => rfl
  | some glyph =>
    simp only [bind, Except.bind]
    by_cases hbackground : target.background = drawing.style.background
    · simp only [if_pos hbackground, draw_eq]
      rfl
    · simp only [if_neg hbackground, closes_eq, changeStyle_eq, draw_eq]
      by_cases hpop : t = .pop
      · simp only [if_pos hpop]
        rfl
      · simp only [if_neg hpop]
        rfl

theorem transition_eq (drawing : Drawing) (t : Transition) (spec : Option Spec) :
    transition drawing t spec = .ok (drawing.transition t spec) := by
  rw [transition, Drawing.transition]
  simp only [separate_eq, bind, Except.bind]
  by_cases hpop : t = .pop
  · simp only [if_pos hpop, reset_eq, changeStyle_eq]
  · simp only [if_neg hpop, changeStyle_eq, pure, Except.pure]

theorem apply_eq (drawing : Drawing) (lexeme : Lexeme) :
    apply drawing lexeme = .ok (drawing.apply lexeme) := by
  cases lexeme with
  | separators separators =>
    have hcount : separators.glyphs.toList.length ∈ [0, 2, 4] := by
      cases separators.glyphs <;> simp [GlyphSet.toList]
    rw [apply, require_of hcount]
    rfl
  | segmentBreak =>
    have hcurrent : drawing.line.segments[drawing.line.segments.length - 1]? =
        some drawing.line.current := by
      simp [Line.segments]
    rw [apply]
    simp only [element_of_getElem? hcurrent]
    rfl
  | whitespace t => exact draw_eq drawing _
  | literal t => exact draw_eq drawing _
  | reset => exact reset_eq drawing
  | transition t spec => exact transition_eq drawing t spec
  | spec spec => exact changeStyle_eq drawing _
  | fill | lineBreak => rfl

theorem finishLine_eq (width : Int) (drawing : Drawing) :
    finishLine width drawing = .ok (drawing.finishLine width) := by
  rw [finishLine, Drawing.finishLine]
  by_cases hplain : drawing.style = .plain
  · simp only [if_pos hplain, justify_eq, pure, Except.pure, bind, Except.bind]
  · simp only [if_neg hplain, reset_eq, justify_eq, pure, Except.pure, bind, Except.bind]

def step (width : Int) (drawing : Drawing) (token : Token) :
    Guarded Empty (List Event × Drawing) :=
  match token.lexeme with
  | .lineBreak => do
    let (row, after) ← finishLine width drawing
    return ([.token token drawing, .line row after], after.startLine)
  | lexeme => do
    let after ← apply drawing lexeme
    return ([.token token drawing], after)

def steps (width : Int) (drawing : Drawing) : List Token → Guarded Empty (List Event × Drawing)
  | [] => return ([], drawing)
  | token :: tokens => do
    let (events, drawing) ← step width drawing token
    let (more, drawing) ← steps width drawing tokens
    return (events ++ more, drawing)

def render (renderer : Renderer) (markup : Text) : Guarded Empty Rendering := do
  let lexing ← ofRest markup 0 markup
  let (events, drawing) ← steps renderer.width renderer.cleared lexing.tokens
  match lexing.error with
  | some error => return ⟨events, drawing, some error⟩
  | none =>
    let (row, after) ← finishLine renderer.width drawing
    return ⟨events ++ [.line row after], after, none⟩

theorem step_eq (width : Int) (drawing : Drawing) (token : Token) :
    step width drawing token = .ok (Rendering.step width drawing token) := by
  by_cases hbreak : token.lexeme = .lineBreak
  · rw [Rendering.step_of_lineBreak hbreak]
    simp only [step, hbreak, finishLine_eq]
    rfl
  · rw [Rendering.step_of_ne_lineBreak hbreak, step]
    split
    next hlexeme => exact absurd hlexeme hbreak
    next =>
      rw [apply_eq]
      rfl

theorem steps_eq (width : Int) (drawing : Drawing) (tokens : List Token) :
    steps width drawing tokens = .ok (Rendering.steps width drawing tokens) := by
  induction tokens generalizing drawing with
  | nil => rfl
  | cons token tokens ih =>
    rw [steps, step_eq, Rendering.steps_cons]
    simp only [bind, Except.bind, ih]
    rfl

/-- No markup leads a renderer to a slip, whatever it was used for before. -/
theorem render_eq (renderer : Renderer) (markup : Text) :
    render renderer markup = .ok (renderer.render markup) := by
  rw [render, ofRest_eq, Renderer.render, Rendering.onward]
  simp only [bind, Except.bind, steps_eq, Lexing.ofMarkup]
  cases (Lexing.ofRest markup 0 markup).error with
  | some error => rfl
  | none =>
    simp only [finishLine_eq]
    rfl

end Guarded

end ShellPrompt
