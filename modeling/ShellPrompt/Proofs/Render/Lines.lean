import Mathlib.Data.List.Basic
import Mathlib.Data.List.Induction
import ShellPrompt.Proofs.Render.Context
/-!
Renderings line by line. The tokens of a markup are parted into lines at their line breaks; a
rendering draws these lines one after the other, and each begins in the state that the one before it
led to. So what a rendering does is said by what it does with one line (`finished_ofLexing`). Of the
lines before, only the last separators, the last fill and the choices they left count.
-/

set_option autoImplicit false

namespace ShellPrompt

/-- The lines of markup as far as they end: with a fault, its last line does not. -/
def Lexing.lines (lexing : Lexing) : List (List Lexeme) :=
  let all := (lexing.tokens.map Token.lexeme).splitOn .lineBreak
  if lexing.error.isSome then all.dropLast else all

def Lexing.without (kind : Lexeme → Bool) (lexing : Lexing) : Lexing :=
  { lexing with tokens := lexing.tokens.filter fun token => !kind token.lexeme }

namespace Lexeme

def separators? : Lexeme → Option Separators
  | .separators set => some set
  | _ => none

def fill? : Lexeme → Option Fill
  | .fill glyphs => some glyphs
  | _ => none

end Lexeme

/-- The separators after some tokens: the last that they set. -/
def Separators.inForce (lexemes : List Lexeme) : Separators :=
  (lexemes.filterMap Lexeme.separators?).getLast?.getD .empty

def Fill.inForce (lexemes : List Lexeme) : Fill :=
  (lexemes.filterMap Lexeme.fill?).getLast?.getD .blank

def Event.line? : Event → Option (Row × Drawing)
  | token _ _ => none
  | line row after => some (row, after)

theorem splitOn_filter {α : Type} [BEq α] [LawfulBEq α] {a : α} {p : α → Bool} (h : p a = true)
    (xs : List α) : (xs.filter p).splitOn a = (xs.splitOn a).map (List.filter p) := by
  induction xs with
  | nil => simp
  | cons x xs ih =>
    obtain ⟨first, rest, hsplit⟩ := List.exists_cons_of_ne_nil (List.splitOn_ne_nil a xs)
    rw [List.splitOn_cons_eq_if_modifyHead]
    by_cases hx : x = a
    · subst hx
      rw [List.filter_cons_of_pos h, List.splitOn_cons_eq_if_modifyHead, ih]
      simp
    · have hne : (x == a) = false := by simpa using hx
      by_cases hp : p x = true
      · rw [List.filter_cons_of_pos hp, List.splitOn_cons_eq_if_modifyHead, ih, hsplit]
        simp [hne, hp]
      · rw [List.filter_cons_of_neg hp, ih, hsplit]
        simp [hne, hp]

theorem flatten_splitOn {α : Type} [BEq α] [LawfulBEq α] (a : α) (xs : List α) :
    (xs.splitOn a).flatten = xs.filter (· != a) := by
  induction xs with
  | nil => simp
  | cons x xs ih =>
    obtain ⟨first, rest, hsplit⟩ := List.exists_cons_of_ne_nil (List.splitOn_ne_nil a xs)
    rw [List.splitOn_cons_eq_if_modifyHead]
    rw [hsplit] at ih ⊢
    by_cases hx : x = a
    · simpa [hx] using ih
    · simpa [hx] using ih

theorem Lexing.mem_of_mem_lines {lexing : Lexing} {line : List Lexeme} {lexeme : Lexeme}
    (hline : line ∈ lexing.lines) (hlexeme : lexeme ∈ line) :
    lexeme ∈ lexing.tokens.map Token.lexeme := by
  have hsplit : line ∈ (lexing.tokens.map Token.lexeme).splitOn .lineBreak := by
    rw [lines] at hline
    split at hline
    · exact (List.dropLast_sublist _).subset hline
    · exact hline
  have hflatten := List.mem_flatten.mpr ⟨line, hsplit, hlexeme⟩
  rw [flatten_splitOn] at hflatten
  exact List.mem_of_mem_filter hflatten

theorem Lexing.lines_without {kind : Lexeme → Bool} (h : kind .lineBreak = false)
    (lexing : Lexing) : (lexing.without kind).lines =
      lexing.lines.map (List.filter fun lexeme => !kind lexeme) := by
  have hlexemes : (lexing.without kind).tokens.map Token.lexeme =
      (lexing.tokens.map Token.lexeme).filter fun lexeme => !kind lexeme := by
    rw [List.filter_map]
    rfl
  have hsplit := splitOn_filter (p := fun lexeme => !kind lexeme) (a := .lineBreak) (by simp [h])
    (lexing.tokens.map Token.lexeme)
  have herror : (lexing.without kind).error = lexing.error := rfl
  rw [lines, lines, hlexemes, hsplit, herror]
  split
  · exact List.map_dropLast.symm
  · rfl

namespace Drawing

def drawLine (width : Int) (drawing : Drawing) (line : List Lexeme) : Row × Drawing :=
  (line.foldl apply drawing).finishLine width

def afterLine (width : Int) (drawing : Drawing) (line : List Lexeme) : Drawing :=
  (drawing.drawLine width line).2.startLine

def drawLines (width : Int) : Drawing → List (List Lexeme) → List (Row × Drawing)
  | _, [] => []
  | drawing, line :: lines =>
    drawing.drawLine width line :: drawLines width (drawing.afterLine width line) lines

variable (width : Int) (drawing : Drawing)

theorem drawLines_append (lines more : List (List Lexeme)) :
    drawing.drawLines width (lines ++ more) = drawing.drawLines width lines ++
      (lines.foldl (afterLine width) drawing).drawLines width more := by
  induction lines generalizing drawing with
  | nil => rfl
  | cons line lines ih => rw [List.cons_append, drawLines, drawLines, ih]; rfl

@[simp] theorem length_drawLines (lines : List (List Lexeme)) :
    (drawing.drawLines width lines).length = lines.length := by
  induction lines generalizing drawing with
  | nil => rfl
  | cons line lines ih => rw [drawLines, List.length_cons, ih, List.length_cons]

theorem getElem?_drawLines (lines : List (List Lexeme)) (n : Nat) :
    (drawing.drawLines width lines)[n]? = lines[n]?.map fun line =>
      ((lines.take n).foldl (afterLine width) drawing).drawLine width line := by
  induction lines generalizing drawing n with
  | nil => rfl
  | cons line lines ih =>
    rw [drawLines]
    cases n with
    | zero => rfl
    | succ n => exact ih _ n

theorem foldl_afterLine (lines : List (List Lexeme)) :
    lines.foldl (afterLine width) drawing =
      (drawing.drawLines width lines).getLast?.elim drawing fun last => last.2.startLine := by
  induction lines using List.reverseRecOn with
  | nil => rfl
  | append_singleton lines line ih =>
    rw [drawLines_append, List.foldl_append, List.getLast?_append]
    rfl

theorem take_drawLines (lines : List (List Lexeme)) (n : Nat) :
    (drawing.drawLines width lines).take n = drawing.drawLines width (lines.take n) := by
  induction lines generalizing drawing n with
  | nil => simp [drawLines]
  | cons line lines ih =>
    cases n with
    | zero => rfl
    | succ n => rw [drawLines, List.take_succ_cons, ih, List.take_succ_cons, drawLines]

section Last

variable {α : Type} (get : Drawing → Option α) {set? : Lexeme → Option α}

theorem foldl_apply_last
    (hset : ∀ drawing lexeme, get (apply drawing lexeme) = (set? lexeme).or (get drawing))
    (lexemes : List Lexeme) :
    get (lexemes.foldl apply drawing) = (lexemes.filterMap set?).getLast?.or (get drawing) := by
  induction lexemes generalizing drawing with
  | nil => rfl
  | cons lexeme lexemes ih =>
    rw [List.foldl_cons, ih, hset]
    cases hfirst : set? lexeme with
    | none => simp [hfirst]
    | some value =>
      cases hlast : (lexemes.filterMap set?).getLast? <;>
        simp [hfirst, hlast, List.getLast?_cons]

theorem foldl_afterLine_last
    (hset : ∀ drawing lexeme, get (apply drawing lexeme) = (set? lexeme).or (get drawing))
    (hend : ∀ drawing, get (finishLine width drawing).2.startLine = get drawing)
    (lines : List (List Lexeme)) :
    get (lines.foldl (afterLine width) drawing) =
      (lines.flatten.filterMap set?).getLast?.or (get drawing) := by
  induction lines generalizing drawing with
  | nil => rfl
  | cons line lines ih =>
    have hline : get (drawing.afterLine width line) =
        (line.filterMap set?).getLast?.or (get drawing) :=
      (hend _).trans (drawing.foldl_apply_last get hset line)
    rw [List.foldl_cons, ih, hline, List.flatten_cons, List.filterMap_append, List.getLast?_append,
      Option.or_assoc]

theorem foldl_afterLine_getD {value : Drawing → α}
    (hset : ∀ drawing lexeme, value (apply drawing lexeme) = (set? lexeme).getD (value drawing))
    (hend : ∀ drawing, value (finishLine width drawing).2.startLine = value drawing)
    (lines : List (List Lexeme)) :
    value (lines.foldl (afterLine width) drawing) =
      (lines.flatten.filterMap set?).getLast?.getD (value drawing) := by
  have hlast := foldl_afterLine_last width drawing (fun drawing => some (value drawing))
    (fun drawing lexeme => by rw [hset, Option.or_some])
    (fun drawing => congrArg some (hend drawing)) lines
  rwa [Option.or_some, Option.some_inj] at hlast

end Last

theorem separators_apply_eq_getD (lexeme : Lexeme) :
    (drawing.apply lexeme).separators = lexeme.separators?.getD drawing.separators := by
  cases lexeme with
  | separators => rfl
  | _ => exact separators_apply drawing rfl

theorem fill_apply_eq_getD (lexeme : Lexeme) :
    (drawing.apply lexeme).fill = lexeme.fill?.getD drawing.fill := by
  cases lexeme with
  | fill => rfl
  | _ => exact fill_apply drawing rfl

theorem separators_foldl_afterLine (choices : Choices) (lines : List (List Lexeme)) :
    (lines.foldl (afterLine width) (start choices)).separators =
      Separators.inForce lines.flatten :=
  foldl_afterLine_getD width (start choices) separators_apply_eq_getD
    (fun drawing => (drawing.finishLine_eq width).1) lines

theorem fill_foldl_afterLine (choices : Choices) (lines : List (List Lexeme)) :
    (lines.foldl (afterLine width) (start choices)).fill = Fill.inForce lines.flatten :=
  foldl_afterLine_getD width (start choices) fill_apply_eq_getD
    (fun drawing => (drawing.finishLine_eq width).2.1) lines

end Drawing

namespace Rendering

def finished (rendering : Rendering) : List (Row × Drawing) :=
  rendering.events.filterMap Event.line?

theorem map_fst_finished (rendering : Rendering) :
    rendering.finished.map Prod.fst = rendering.rows := by
  rw [finished, rows, List.map_filterMap]
  refine List.filterMap_congr fun event _ => ?_
  cases event <;> rfl

variable {width : Int} {choices : Choices} {lexing : Lexing}

theorem line?_steps (width : Int) (drawing : Drawing) (tokens : List Token) :
    (steps width drawing tokens).1.filterMap Event.line? ++
        [(steps width drawing tokens).2.finishLine width] =
      drawing.drawLines width ((tokens.map Token.lexeme).splitOn .lineBreak) := by
  induction tokens generalizing drawing with
  | nil => rfl
  | cons token tokens ih =>
    rw [steps_cons, List.filterMap_append, List.append_assoc, ih, List.map_cons,
      List.splitOn_cons_eq_if_modifyHead]
    by_cases hbreak : token.lexeme = .lineBreak
    · rw [step_of_lineBreak hbreak, if_pos (by simp [hbreak])]
      rfl
    · obtain ⟨line, lines, hsplit⟩ := List.exists_cons_of_ne_nil
        (List.splitOn_ne_nil Lexeme.lineBreak (tokens.map Token.lexeme))
      rw [step_of_ne_lineBreak hbreak, if_neg (by simpa using hbreak), hsplit]
      rfl

/-- A rendering draws the lines of its markup one after the other. -/
theorem finished_ofLexing (width : Int) (choices : Choices) (lexing : Lexing) :
    (ofLexing width choices lexing).finished =
      (Drawing.start choices).drawLines width lexing.lines := by
  have hsteps := line?_steps width (.start choices) lexing.tokens
  cases herror : lexing.error with
  | none =>
    rw [ofLexing_of_error_eq_none herror, Lexing.lines, herror]
    simp only [finished, List.filterMap_append]
    exact hsteps
  | some error =>
    -- The last line of the run is not finished.
    have hlast := List.dropLast_append_getLast (List.splitOn_ne_nil Lexeme.lineBreak
      (lexing.tokens.map Token.lexeme))
    rw [← hlast, Drawing.drawLines_append] at hsteps
    rw [ofLexing_of_error_eq_some herror, Lexing.lines, herror]
    exact (List.append_inj' hsteps rfl).1

theorem length_finished : (ofLexing width choices lexing).finished.length = lexing.lines.length := by
  rw [finished_ofLexing, Drawing.length_drawLines]

theorem getElem?_finished (n : Nat) :
    (ofLexing width choices lexing).finished[n]? = lexing.lines[n]?.map fun line =>
      ((lexing.lines.take n).foldl (Drawing.afterLine width) (.start choices)).drawLine width
        line := by
  rw [finished_ofLexing, Drawing.getElem?_drawLines]

/-- What is known of the state that a line begins in, and of its end. -/
theorem exists_drawLine {n : Nat} {line : List Lexeme} {row : Row} {after : Drawing}
    (hline : lexing.lines[n]? = some line)
    (hfinished : (ofLexing width choices lexing).finished[n]? = some (row, after)) :
    ∃ drawing : Drawing, drawing.drawLine width line = (row, after) ∧
      drawing.startLine = drawing ∧
      drawing.separators = Separators.inForce (lexing.lines.take n).flatten ∧
      drawing.choices = ((ofLexing width choices lexing).finished.take n).getLast?.elim choices
        (fun earlier => earlier.2.choices) ∧
      after.fill = Fill.inForce (lexing.lines.take (n + 1)).flatten := by
  rw [getElem?_finished, hline, Option.map_some, Option.some_inj] at hfinished
  refine ⟨_, hfinished, ?_, ?_, ?_, ?_⟩
  · rw [Drawing.foldl_afterLine]
    cases ((Drawing.start choices).drawLines width (lexing.lines.take n)).getLast? <;> rfl
  · exact Drawing.separators_foldl_afterLine width choices _
  · rw [finished_ofLexing, Drawing.take_drawLines, Drawing.foldl_afterLine]
    cases ((Drawing.start choices).drawLines width (lexing.lines.take n)).getLast? <;> rfl
  · rw [← Drawing.fill_foldl_afterLine width choices, List.take_add_one, hline, List.foldl_append]
    exact (congrArg (fun last => last.2.fill) hfinished).symm

end Rendering

end ShellPrompt
