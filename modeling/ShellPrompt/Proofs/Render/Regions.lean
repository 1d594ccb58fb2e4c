import ShellPrompt.Proofs.Markup.Regions
import ShellPrompt.Proofs.Render.Run
/-!
What a region leaves behind. The stack of a drawing is the list of styles that its open regions
began in, so the end of a region goes back to the style before it, whatever was drawn inside. Main
statement: `pops_restore_pushes`.
-/

set_option autoImplicit false

namespace ShellPrompt

namespace Drawing

variable (drawing : Drawing)

theorem separate_pop (spec : Option Spec) (target : Style) :
    (drawing.separate .pop spec target).2 = target := by
  rw [separate]
  cases drawing.separators.glyph? .pop with
  | none => rfl
  | some glyph =>
    by_cases hbackground : target.background = drawing.style.background
    · simp only [if_pos hbackground]
    · simp only [if_neg hbackground, if_true]

theorem stack_transition (t : Transition) (spec : Option Spec) :
    (drawing.transition t spec).stack = (drawing.destination t spec).2 :=
  transition_preserves (P := fun next => next.stack = (drawing.destination t spec).2)
    (fun _ _ _ h => h) (fun _ _ h => h) (fun _ h => h) spec rfl

theorem destination_pop (spec : Option Spec) :
    drawing.destination .pop spec =
      ((drawing.stack.head?.getD .plain).afterSpec spec, drawing.stack.tail) := by
  rw [destination]
  cases drawing.stack <;> rfl

theorem style_changeStyle_reset (target : Style) :
    (drawing.reset.changeStyle target).style = target := by
  simp [changeStyle, reset, Style.reachable, Style.plain]

theorem style_transition_pop (spec : Option Spec) :
    (drawing.transition .pop spec).style = (drawing.stack.head?.getD .plain).afterSpec spec := by
  simp only [transition, if_true, separate_pop, style_changeStyle_reset, destination_pop]

theorem stack_apply_of_not_region {lexeme : Lexeme} (hbegins : lexeme.beginsRegion = false)
    (hends : lexeme.endsRegion = false) : (drawing.apply lexeme).stack = drawing.stack := by
  cases lexeme with
  | transition t spec =>
    cases t with
    | push => cases hbegins
    | pop => cases hends
    | opening | closing => exact stack_transition drawing _ spec
  | separators | fill | segmentBreak | whitespace | literal | lineBreak | reset | spec => rfl

theorem stack_finishLine (width : Int) : (drawing.finishLine width).2.stack = drawing.stack := by
  rw [finishLine]
  by_cases hplain : drawing.style = .plain
  · rw [if_pos hplain]
  · rw [if_neg hplain]
    rfl

end Drawing

namespace Event

/-- The token that is about to be applied, and the state before it. -/
def before? : Event → Option (Token × Drawing)
  | token t before => some (t, before)
  | line _ _ => none

end Event

namespace Rendering

/-- The state before the token at a place; from the end of the tokens on, the last state. -/
def before (width : Int) (choices : Choices) (tokens : List Token) (place : Nat) : Drawing :=
  (steps width (.start choices) (tokens.take place)).2

variable {width : Int} {choices : Choices} {tokens : List Token} {place : Nat}

theorem before_succ {token : Token} (h : tokens[place]? = some token) :
    before width choices tokens (place + 1) =
      (step width (before width choices tokens place) token).2 := by
  rw [before, List.take_add_one, h, steps_append]
  rfl

theorem before_succ_of_none (h : tokens[place]? = none) :
    before width choices tokens (place + 1) = before width choices tokens place := by
  rw [before, List.take_add_one, h, Option.toList_none, List.append_nil, before]

theorem before?_steps (width : Int) (drawing : Drawing) (tokens : List Token) (place : Nat) :
    ((steps width drawing tokens).1.filterMap Event.before?)[place]? =
      tokens[place]?.map fun token => (token, (steps width drawing (tokens.take place)).2) := by
  induction tokens generalizing drawing place with
  | nil => rfl
  | cons token tokens ih =>
    have hfirst : (step width drawing token).1.filterMap Event.before? = [(token, drawing)] := by
      by_cases hbreak : token.lexeme = .lineBreak
      · rw [step_of_lineBreak hbreak]
        rfl
      · rw [step_of_ne_lineBreak hbreak]
        rfl
    rw [steps_cons, List.filterMap_append, hfirst]
    cases place with
    | zero => rfl
    | succ place => exact ih _ place

/-- The step: a stack that holds the styles before the open regions does so after one more token. -/
theorem stack_step {drawing : Drawing} {lexemes : List Lexeme} {styles : Nat → Style}
    (hstack : drawing.stack = ((Regions.openRegions lexemes).map styles).reverse)
    (hstyle : styles lexemes.length = drawing.style) (width : Int) (token : Token) :
    (step width drawing token).2.stack =
      ((Regions.openRegions (lexemes ++ [token.lexeme])).map styles).reverse := by
  rcases token.lexeme.region_cases with ⟨spec, hpush⟩ | ⟨spec, hpop⟩ | hline |
    ⟨hbegins, hends, hline⟩
  · rw [step_of_ne_lineBreak (by rw [hpush]; nofun), hpush, Regions.openRegions_push,
      List.map_append, List.reverse_append, ← hstack, List.map_singleton, hstyle]
    exact drawing.stack_transition .push spec
  · rw [step_of_ne_lineBreak (by rw [hpop]; nofun), hpop, Regions.openRegions_pop,
      List.map_dropLast, ← List.tail_reverse, ← hstack]
    exact (drawing.stack_transition .pop spec).trans (by rw [drawing.destination_pop])
  · rw [step_of_lineBreak hline, hline, Regions.openRegions_lineBreak]
    rfl
  · rw [step_of_ne_lineBreak hline, Regions.openRegions_other lexemes hbegins hends hline,
      ← hstack]
    exact drawing.stack_apply_of_not_region hbegins hends

theorem stack_before (width : Int) (choices : Choices) (tokens : List Token) (place : Nat) :
    (before width choices tokens place).stack =
      ((Regions.openRegions ((tokens.map Token.lexeme).take place)).map fun region =>
        (before width choices tokens region).style).reverse := by
  induction place with
  | zero => rfl
  | succ place ih =>
    rw [List.take_add_one, List.getElem?_map]
    cases htoken : tokens[place]? with
    | none => rw [before_succ_of_none htoken, ih, Option.map_none, Option.toList_none,
        List.append_nil]
    | some token =>
      have hlength : ((tokens.map Token.lexeme).take place).length = place := by
        have hplace := (List.getElem?_eq_some_iff.mp htoken).1
        rw [List.length_take, List.length_map]
        omega
      rw [before_succ htoken, Option.map_some, Option.toList_some]
      exact stack_step ih (by rw [hlength]) width token

theorem style_before_pop {spec : Option Spec}
    (h : (tokens.map Token.lexeme)[place]? = some (.transition .pop spec)) :
    (before width choices tokens (place + 1)).style =
      ((Regions.openRegions ((tokens.map Token.lexeme).take place)).getLast?.elim Style.plain
        fun region => (before width choices tokens region).style).afterSpec spec := by
  rw [List.getElem?_map, Option.map_eq_some_iff] at h
  obtain ⟨token, htoken, hpop⟩ := h
  rw [before_succ htoken, step_of_ne_lineBreak (by rw [hpop]; nofun), hpop]
  refine (Drawing.style_transition_pop _ spec).trans ?_
  rw [stack_before, List.head?_reverse, List.getLast?_map]
  cases (Regions.openRegions ((tokens.map Token.lexeme).take place)).getLast? <;> rfl

theorem before?_ofMarkup (width : Int) (choices : Choices) (markup : Text) (place : Nat) :
    let tokens := (Lexing.ofMarkup markup).tokens
    ((ofMarkup width choices markup).events.filterMap Event.before?)[place]? =
      tokens[place]?.map fun token => (token, before width choices tokens place) := by
  intro tokens
  rw [ofMarkup]
  cases herror : (Lexing.ofMarkup markup).error with
  | some error =>
    rw [ofLexing_of_error_eq_some herror]
    exact before?_steps width _ tokens place
  | none =>
    rw [ofLexing_of_error_eq_none herror, List.filterMap_append]
    exact (congrArg (·[place]?) (List.append_nil _)).trans (before?_steps width _ tokens place)

end Rendering

/--
Each token is applied to the state before it. At each of these points, at the end of the tokens, and
where the line is finished there, the stack holds the styles before the regions that are open on the
line, that of the innermost on top. The end of a region ends the innermost open one and leaves the
style before that region with the spec of the end applied, or the plain style with it if no region
is open.
-/
theorem pops_restore_pushes (width : Int) (choices : Choices) (markup : Text) :
    let tokens := (Lexing.ofMarkup markup).tokens
    let lexemes := tokens.map Token.lexeme
    let before := Rendering.before width choices tokens
    let openAt := fun place => Regions.openRegions (lexemes.take place)
    let styleBefore := fun region => (before region).style
    (∀ place : Nat,
      ((Rendering.ofMarkup width choices markup).events.filterMap Event.before?)[place]? =
        tokens[place]?.map fun token => (token, before place)) ∧
    (∀ place, (before place).stack = ((openAt place).map styleBefore).reverse ∧
      ((before place).finishLine width).2.stack = (before place).stack) ∧
    (∀ (place : Nat) (spec : Option Spec), lexemes[place]? = some (.transition .pop spec) →
      openAt (place + 1) = (openAt place).dropLast ∧
        styleBefore (place + 1) =
          ((openAt place).getLast?.elim Style.plain styleBefore).afterSpec spec) := by
  intro tokens lexemes before openAt styleBefore
  refine ⟨?_, ?_, ?_⟩
  · exact Rendering.before?_ofMarkup width choices markup
  · intro place
    exact ⟨Rendering.stack_before width choices tokens place, Drawing.stack_finishLine _ width⟩
  · intro place spec hpop
    refine ⟨?_, Rendering.style_before_pop hpop⟩
    change Regions.openRegions (lexemes.take (place + 1)) = _
    rw [List.take_add_one, hpop]
    exact Regions.openRegions_pop (lexemes.take place) spec

/--
An end with nothing to match, a region in a region that turns italic on, and an end after a line
break that ended the outer region.
-/
theorem pops_restore_pushes_nested :
    let tokens := (Lexing.ofMarkup
      "S(e0b6,e0b4)\x7dg\x7b:r!\"x\"\x7b/:b\"y\"\x7d*\"z\"|\x7db\"w\"").tokens
    let lexemes := tokens.map Token.lexeme
    let before := Rendering.before 10 (.cycle [0]) tokens
    (Regions.openRegions (lexemes.take 1) = [] ∧
      (before 2).style = ⟨.basic .green, .default, false, false⟩) ∧
    (Regions.openRegions (lexemes.take 6) = [2, 4] ∧
      (before 6).style = ⟨.default, .basic .blue, true, true⟩ ∧
      (before 7).style = (before 4).style ∧
      (before 4).style = ⟨.default, .basic .red, true, false⟩) ∧
    (Regions.openRegions (lexemes.take 10) = [] ∧
      (before 11).style = ⟨.basic .blue, .default, false, false⟩) := by
  intro tokens lexemes before
  obtain ⟨-, -, hpops⟩ := pops_restore_pushes 10 (.cycle [0])
    "S(e0b6,e0b4)\x7dg\x7b:r!\"x\"\x7b/:b\"y\"\x7d*\"z\"|\x7db\"w\""
  have hfirst := (hpops 1 (some ⟨some (.basic .green), none, false, false⟩) (by decide +kernel)).2
  have hinner := (hpops 6 none (by decide +kernel)).2
  have hlast := (hpops 10 (some ⟨some (.basic .blue), none, false, false⟩) (by decide +kernel)).2
  refine ⟨⟨by decide +kernel, hfirst.trans (by decide +kernel)⟩,
    ⟨by decide +kernel, by decide +kernel, hinner.trans (by decide +kernel), by decide +kernel⟩,
    by decide +kernel, hlast.trans (by decide +kernel)⟩

end ShellPrompt
