import ShellPrompt.Shell.Mode
/-!
Reading a prompt as a shell's line editor does. One character announces marks: written twice it is
itself, with an opening or closing character after it it brackets a stretch that takes no columns.
-/

set_option autoImplicit false

namespace ShellPrompt

/-- A character of a prompt, or the place where a stretch without columns begins or ends. -/
inductive Mark where
  | char (c : CodePoint)
  | opens
  | closes
deriving DecidableEq

/-- The character that announces marks, and those that open and close a stretch after it. -/
structure Brackets where
  lead : CodePoint
  opening : CodePoint
  closing : CodePoint
  opening_ne_lead : opening ≠ lead := by decide
  closing_ne_lead : closing ≠ lead := by decide
  closing_ne_opening : closing ≠ opening := by decide

namespace Brackets

/-- `%%`, `%` with an opening and `%` with a closing brace. -/
def zsh : Brackets where
  lead := '%'
  opening := '\x7b'
  closing := '\x7d'

/-- Two backslashes, a backslash with an opening and one with a closing bracket. -/
def bash : Brackets where
  lead := '\\'
  opening := '['
  closing := ']'

def mark? (brackets : Brackets) (c : CodePoint) : Option Mark :=
  if c = brackets.lead then some (.char c)
  else if c = brackets.opening then some .opens
  else if c = brackets.closing then some .closes
  else none

def marks? (brackets : Brackets) : Text → Option (List Mark)
  | [] => some []
  | c :: rest =>
    if c = brackets.lead then
      match rest with
      | [] => none
      | d :: rest =>
        match brackets.mark? d with
        | none => none
        | some mark => (marks? brackets rest).map (mark :: ·)
    else (marks? brackets rest).map (.char c :: ·)

variable (brackets : Brackets)

@[simp] theorem mark?_lead : brackets.mark? brackets.lead = some (.char brackets.lead) := by
  simp [mark?]

@[simp] theorem mark?_opening : brackets.mark? brackets.opening = some .opens := by
  simp [mark?, brackets.opening_ne_lead]

@[simp] theorem mark?_closing : brackets.mark? brackets.closing = some .closes := by
  simp [mark?, brackets.closing_ne_lead, brackets.closing_ne_opening]

theorem marks?_lead_cons {d : CodePoint} {mark : Mark} (h : brackets.mark? d = some mark)
    (rest : Text) :
    brackets.marks? (brackets.lead :: d :: rest) = (brackets.marks? rest).map (mark :: ·) := by
  rw [marks?.eq_def]
  simp only [if_true, h]

theorem marks?_cons_of_ne {c : CodePoint} (h : c ≠ brackets.lead) (rest : Text) :
    brackets.marks? (c :: rest) = (brackets.marks? rest).map (.char c :: ·) := by
  rw [marks?.eq_def]
  simp only [if_neg h]

theorem marks?_append_of_not_mem {t : Text} (h : brackets.lead ∉ t) (rest : Text) :
    brackets.marks? (t ++ rest) = (brackets.marks? rest).map (t.map .char ++ ·) := by
  induction t with
  | nil => simp
  | cons c t ih =>
    simp only [List.mem_cons, not_or] at h
    have hc : c ≠ brackets.lead := fun hc => h.1 hc.symm
    rw [List.cons_append, marks?_cons_of_ne brackets hc, ih h.2, Option.map_map]
    rfl

theorem marks?_double_append (t rest : Text) :
    brackets.marks? (Text.double brackets.lead t ++ rest) =
      (brackets.marks? rest).map (t.map .char ++ ·) := by
  induction t with
  | nil => simp [Text.double]
  | cons c t ih =>
    have hdouble : Text.double brackets.lead (c :: t) ++ rest =
        (if c = brackets.lead then [c, c] else [c]) ++ (Text.double brackets.lead t ++ rest) := by
      simp [Text.double]
    rw [hdouble]
    by_cases hc : c = brackets.lead
    · subst hc
      rw [if_pos rfl]
      have hmark := marks?_lead_cons brackets (mark?_lead brackets)
        (Text.double brackets.lead t ++ rest)
      simp only [List.cons_append, List.nil_append]
      rw [hmark, ih, Option.map_map]
      rfl
    · rw [if_neg hc]
      simp only [List.cons_append, List.nil_append]
      rw [marks?_cons_of_ne brackets hc, ih, Option.map_map]
      rfl

theorem marks?_bracketed_append {t : Text} (h : brackets.lead ∉ t) (rest : Text) :
    brackets.marks?
        ([brackets.lead, brackets.opening] ++ t ++ [brackets.lead, brackets.closing] ++ rest) =
      (brackets.marks? rest).map (.opens :: t.map .char ++ [.closes] ++ ·) := by
  have hopens := marks?_lead_cons brackets (mark?_opening brackets)
    (t ++ ([brackets.lead, brackets.closing] ++ rest))
  have hcloses := marks?_lead_cons brackets (mark?_closing brackets) rest
  have hstretch := marks?_append_of_not_mem brackets h (brackets.lead :: brackets.closing :: rest)
  simp only [List.cons_append, List.nil_append, List.append_assoc] at hopens ⊢
  rw [hopens, hstretch, hcloses, Option.map_map, Option.map_map]
  simp [Function.comp_def]

end Brackets

namespace Mark

def char? : Mark → Option CodePoint
  | char c => some c
  | _ => none

/--
The text outside brackets, and the stretches between brackets in order, given the part that was
read of an open stretch. There are none if brackets are nested or do not match.
-/
def split? : Option Text → List Mark → Option (Text × List Text)
  | none, [] => some ([], [])
  | some _, [] => none
  | none, char c :: marks =>
    (split? none marks).map fun (outside, stretches) => (c :: outside, stretches)
  | some stretch, char c :: marks => split? (some (stretch ++ [c])) marks
  | none, opens :: marks => split? (some []) marks
  | some _, opens :: _ => none
  | none, closes :: _ => none
  | some stretch, closes :: marks =>
    (split? none marks).map fun (outside, stretches) => (outside, stretch :: stretches)

@[simp] theorem char?_char (c : CodePoint) : (char c).char? = some c := rfl

@[simp] theorem char?_opens : opens.char? = none := rfl

@[simp] theorem char?_closes : closes.char? = none := rfl

theorem filterMap_char?_map_char (t : Text) : (t.map Mark.char).filterMap char? = t := by
  induction t with
  | nil => rfl
  | cons c t ih => simp [ih]

theorem split?_chars_append (t : Text) (marks : List Mark) :
    split? none (t.map char ++ marks) =
      (split? none marks).map fun (outside, stretches) => (t ++ outside, stretches) := by
  induction t with
  | nil => simp
  | cons c t ih =>
    rw [List.map_cons, List.cons_append, split?, ih, Option.map_map]
    rfl

theorem split?_open_chars_append (stretch t : Text) (marks : List Mark) :
    split? (some stretch) (t.map char ++ marks) = split? (some (stretch ++ t)) marks := by
  induction t generalizing stretch with
  | nil => simp
  | cons c t ih =>
    rw [List.map_cons, List.cons_append, split?, ih]
    simp

theorem split?_bracketed_append (t : Text) (marks : List Mark) :
    split? none (opens :: t.map char ++ [closes] ++ marks) =
      (split? none marks).map fun (outside, stretches) => (outside, t :: stretches) := by
  have hopen := split?_open_chars_append [] t (closes :: marks)
  simp only [List.cons_append, List.nil_append, List.append_assoc] at hopen ⊢
  rw [split?, hopen, split?]

end Mark

namespace ShellMode

def brackets? : ShellMode → Option Brackets
  | raw => none
  | zsh => some .zsh
  | bash => some .bash

theorem wrap_eq {mode : ShellMode} {brackets : Brackets} (h : mode.brackets? = some brackets)
    (t : Text) :
    mode.wrap t = [brackets.lead, brackets.opening] ++ t ++ [brackets.lead, brackets.closing] := by
  cases mode with
  | raw => cases h
  | zsh =>
    cases h
    rfl
  | bash =>
    cases h
    rfl

theorem protect_eq {mode : ShellMode} {brackets : Brackets} (h : mode.brackets? = some brackets)
    (t : Text) : mode.protect t = Text.double brackets.lead t := by
  cases mode with
  | raw => cases h
  | zsh =>
    cases h
    rfl
  | bash =>
    cases h
    rfl

end ShellMode

end ShellPrompt
