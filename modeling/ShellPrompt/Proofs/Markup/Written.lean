import ShellPrompt.Markup.Quote
import ShellPrompt.Proofs.Markup.Appending
import ShellPrompt.Proofs.Text.Hexadecimal
/-!
Markup that is written piece by piece is read piece by piece: a quoted text as one literal with
what a quote keeps of the text, the digits of a color as this color, and each token as itself if
what comes next does not go on with it.
-/

set_option autoImplicit false

namespace ShellPrompt

namespace Literal

/-- What a quote keeps of a character: only one that neither prints nor has a number is lost. -/
def keptOne (prints : CodePoint → Bool) (c : CodePoint) : CodePoint :=
  if prints c = true ∨ c.val ≤ 0xFFFF then c else CodePoint.ofNat 0xFFFD

/-- What a literal says that a text was quoted as. -/
def kept (t : Text) : Text :=
  t.map (keptOne CodePoint.isPrintable)

theorem map_keptOne_eq_self {prints : CodePoint → Bool} {t : Text}
    (h : ∀ c ∈ t, prints c = true ∨ c.val ≤ 0xFFFF) : t.map (keptOne prints) = t := by
  have hone : ∀ c ∈ t, keptOne prints c = id c := fun c hc => if_pos (h c hc)
  rw [List.map_congr_left hone, List.map_id]

theorem kept_eq_self {t : Text} (h : ∀ c ∈ t, c.val ≤ 0xFFFF) : kept t = t :=
  map_keptOne_eq_self fun c hc => Or.inr (h c hc)

theorem ofNat_escapeNumber {prints : CodePoint → Bool} {c : CodePoint} (h : ¬ prints c = true) :
    CodePoint.ofNat (escapeNumber c) = keptOne prints c := by
  rw [escapeNumber, keptOne]
  by_cases hval : c.val ≤ 0xFFFF
  · rw [if_pos hval, if_pos (Or.inr hval), CodePoint.ofNat, dif_pos c.val_lt]
  · rw [if_neg hval, if_neg (by simp [h, hval])]

theorem escapeNumber_lt (c : CodePoint) : escapeNumber c < 16 ^ 4 := by
  rw [escapeNumber]
  split <;> omega

theorem scanInside_self {c : CodePoint} (h : c = CodePoint.ofChar '"' ∨ c = CodePoint.ofChar '\\')
    (whole s : Text) :
    scanInside whole (CodePoint.ofChar '\\' :: c :: s) = prepend [c] (scanInside whole s) := by
  have hquote : CodePoint.ofChar '\\' ≠ CodePoint.ofChar '"' := by decide
  rw [scanInside.eq_def]
  simp only [if_neg hquote, if_true, if_pos h]

theorem scanInside_quoteOne (prints : CodePoint → Bool) (c : CodePoint) (whole s : Text) :
    scanInside whole (quoteOne prints c ++ s) =
      prepend [keptOne prints c] (scanInside whole s) := by
  rw [quoteOne]
  by_cases hself : c = CodePoint.ofChar '"' ∨ c = CodePoint.ofChar '\\'
  · have hkept : keptOne prints c = c := by
      refine if_pos (Or.inr ?_)
      rcases hself with rfl | rfl <;> decide
    rw [if_pos hself, hkept]
    exact scanInside_self hself whole s
  rw [if_neg hself]
  by_cases hprints : prints c = true
  · obtain ⟨hquote, hbackslash⟩ := not_or.mp hself
    rw [if_pos hprints, keptOne, if_pos (Or.inl hprints)]
    exact scanInside_plain hquote hbackslash whole s
  · have hdigits := fourDigits?_append (Text.length_hexadecimal (by decide) (escapeNumber_lt c))
      (fun _ hc => Text.isHexDigit_of_mem_hexadecimal hc) s
    rw [Text.hexNumber_hexadecimal, ofNat_escapeNumber hprints] at hdigits
    rw [if_neg hprints, List.append_assoc]
    exact scanInside_number hdigits whole

theorem scanInside_quoted (prints : CodePoint → Bool) (t whole rest : Text) :
    scanInside whole (t.flatMap (quoteOne prints) ++ CodePoint.ofChar '"' :: rest) =
      .ok (t.map (keptOne prints), rest) := by
  induction t with
  | nil =>
    rw [List.flatMap_nil, List.nil_append, scanInside.eq_def]
    rfl
  | cons c t ih =>
    rw [List.flatMap_cons, List.append_assoc, scanInside_quoteOne, ih]
    rfl

end Literal

namespace Rgb

def digits (color : Rgb) : Text :=
  Text.concat (color.components.map (Text.hexadecimal 2))

theorem hex_eq (color : Rgb) : color.hex = CodePoint.ofChar '#' :: color.digits := rfl

theorem digits_eq (color : Rgb) :
    color.digits = Text.hexadecimal 2 color.red.val ++
      (Text.hexadecimal 2 color.green.val ++ Text.hexadecimal 2 color.blue.val) := by
  simp [digits, components, Text.concat]

theorem length_hexadecimal_component (component : Fin 256) :
    (Text.hexadecimal 2 component.val).length = 2 :=
  Text.length_hexadecimal (by decide) component.isLt

theorem length_digits (color : Rgb) : color.digits.length = 6 := by
  simp only [digits_eq, List.length_append, length_hexadecimal_component]

theorem isHexDigit_of_mem_digits {color : Rgb} {c : CodePoint} (h : c ∈ color.digits) :
    c.isHexDigit = true := by
  simp only [digits_eq, List.mem_append] at h
  rcases h with h | h | h <;> exact Text.isHexDigit_of_mem_hexadecimal h

theorem ofHexDigits_digits (color : Rgb) : ofHexDigits color.digits = color := by
  have hcomponent : ∀ component : Fin 256,
      Fin.ofNat 256 (Text.hexNumber (Text.hexadecimal 2 component.val)) = component := by
    intro component
    rw [Text.hexNumber_hexadecimal]
    exact Fin.ext (Nat.mod_eq_of_lt component.isLt)
  have hgreen : color.digits.drop 2 =
      Text.hexadecimal 2 color.green.val ++ Text.hexadecimal 2 color.blue.val := by
    rw [digits_eq]
    exact List.drop_left' (length_hexadecimal_component color.red)
  have hblue : color.digits.drop 4 = Text.hexadecimal 2 color.blue.val := by
    have hdrop := congrArg (List.drop 2) hgreen
    rw [List.drop_drop, List.drop_left' (length_hexadecimal_component color.green)] at hdrop
    exact hdrop
  have hred : color.digits.take 2 = Text.hexadecimal 2 color.red.val := by
    rw [digits_eq]
    exact List.take_left' (length_hexadecimal_component color.red)
  have hlast := length_hexadecimal_component color.blue
  simp only [ofHexDigits, List.drop_zero, hred, hgreen, hblue, hcomponent,
    List.take_left' (length_hexadecimal_component color.green),
    List.take_of_length_le hlast.le]

end Rgb

def Color.written? : Color → Option Text
  | .default => none
  | .basic color => some [color.letter]
  | .rgb color => some color.hex

namespace ColorSpec

theorem exists_head_of_written? {color : Color} {text : Text} (h : color.written? = some text) :
    ∃ c s, text = c :: s ∧ isHead c = true ∧ c ≠ CodePoint.ofChar '!' ∧ c ≠ CodePoint.ofChar '/' ∧
      c ≠ CodePoint.ofChar ':' := by
  cases color with
  | default => cases h
  | basic color =>
    cases h
    exact ⟨_, _, rfl, isHead_letter color, by cases color <;> decide⟩
  | rgb color =>
    cases h
    exact ⟨_, _, rfl, rfl, by decide, by decide, by decide⟩

theorem isSpacing_of_isHead {c : CodePoint} (h : isHead c = true) : c.isSpacing = false := by
  have hbegins := begins_of_isHead h []
  rw [Bool.eq_false_iff, Ne, CodePoint.isSpacing_iff, not_or]
  exact ⟨ne_of_begins hbegins rfl, ne_of_begins hbegins rfl⟩

theorem scanColor_written {color : Color} {text : Text} (h : color.written? = some text)
    (rest : Text) : scanColor (text ++ rest) = .ok (color, rest) := by
  cases color with
  | default => cases h
  | basic color =>
    cases h
    cases color <;> rfl
  | rgb color =>
    cases h
    have hleading := leadingDigits_append (Rgb.length_digits color)
      (fun _ hc => Rgb.isHexDigit_of_mem_digits hc) rest
    have hdrop : (color.digits ++ rest).drop 6 = rest := List.drop_left' (Rgb.length_digits color)
    rw [Rgb.hex_eq, List.cons_append, scanColor, if_pos rfl, hleading, Rgb.length_digits,
      if_neg (by decide), Rgb.ofHexDigits_digits, hdrop]

theorem scanAfter_foreground {color : Color} {text : Text} (h : color.written? = some text)
    (before : Spec) (rest : Text) :
    scanAfter before (text ++ rest) =
      scanAfter (before.andThen { Spec.empty with foreground := some color }) rest := by
  have hscan := scanColor_written h rest
  obtain ⟨c, s, rfl, hhead, hbold, hitalic, hcolon⟩ := exists_head_of_written? h
  refine scanAfter_of_scanAttribute (begins_of_isHead hhead (s ++ rest)) ?_
  rw [List.cons_append] at hscan ⊢
  rw [scanAttribute, if_neg hbold, if_neg hitalic, if_neg hcolon, hscan]

theorem scanAfter_background {color : Color} {text : Text} (h : color.written? = some text)
    (before : Spec) (rest : Text) :
    scanAfter before (CodePoint.ofChar ':' :: text ++ rest) =
      scanAfter (before.andThen { Spec.empty with background := some color }) rest := by
  refine scanAfter_of_scanAttribute (begins_of_isHead rfl (text ++ rest)) ?_
  rw [List.cons_append, scanAttribute, if_neg (by decide), if_neg (by decide), if_pos rfl,
    scanColor_written h]

theorem scanAfter_bold (before : Spec) (rest : Text) :
    scanAfter before (CodePoint.ofChar '!' :: rest) =
      scanAfter (before.andThen { Spec.empty with bold := true }) rest :=
  scanAfter_of_scanAttribute (begins_of_isHead rfl rest) rfl

end ColorSpec

theorem Lexeme.scan_quoted (prints : CodePoint → Bool) (t rest : Text) :
    scan '"' (t.flatMap (Literal.quoteOne prints) ++ (['"'] : Text) ++ rest) =
      .ok (.literal (t.map (Literal.keptOne prints)), rest) := by
  have hquote : scan '"' (t.flatMap (Literal.quoteOne prints) ++ (['"'] : Text) ++ rest) =
      scanLiteral '"' (t.flatMap (Literal.quoteOne prints) ++ (['"'] : Text) ++ rest) := rfl
  have hinside := Literal.scanInside_quoted prints t
  rw [hquote, List.append_assoc, List.singleton_append, scanLiteral, hinside]

def Lexeme.space : Lexeme :=
  .whitespace [CodePoint.ofChar ' ']

namespace Lexing

/-- A text is read without fault as these lexemes, wherever it stands at the end of markup. -/
def Reads (s : Text) (lexemes : List Lexeme) : Prop :=
  ∀ markup position, (ofRest markup position s).tokens.map Token.lexeme = lexemes ∧
    (ofRest markup position s).error = none

theorem reads_nil : Reads [] [] := by
  intro markup position
  rw [ofRest]
  exact ⟨rfl, rfl⟩

namespace Reads

variable {rest : Text} {lexemes : List Lexeme}

theorem cons (h : Reads rest lexemes) {c : CodePoint} (raw : Text) {lexeme : Lexeme}
    (hc : c.isLineEnd = false) (hscan : Lexeme.scan c (raw ++ rest) = .ok (lexeme, rest)) :
    Reads (c :: raw ++ rest) (lexeme :: lexemes) := by
  intro markup position
  obtain ⟨hlexemes, herror⟩ := h markup (position + (c :: raw).length)
  rw [ofRest_of_scan_eq_ok hc hscan]
  exact ⟨congrArg (lexeme :: ·) hlexemes, herror⟩

theorem reset (h : Reads rest lexemes) : Reads (CodePoint.ofChar '0' :: rest) (.reset :: lexemes) :=
  h.cons [] rfl rfl

theorem segmentBreak (h : Reads rest lexemes) :
    Reads (CodePoint.ofChar '*' :: rest) (.segmentBreak :: lexemes) :=
  h.cons [] rfl rfl

theorem lineBreak (h : Reads rest lexemes) :
    Reads (CodePoint.ofChar '|' :: rest) (.lineBreak :: lexemes) :=
  h.cons [] rfl rfl

theorem space {c : CodePoint} (h : Reads rest lexemes) (hhead : rest.head? = some c)
    (hc : c.isSpacing = false) :
    Reads (CodePoint.ofChar ' ' :: rest) (.space :: lexemes) := by
  obtain ⟨s, rfl⟩ := List.head?_eq_some_iff.mp hhead
  refine h.cons [] rfl ?_
  rw [List.nil_append, Lexeme.scan_spacing rfl, List.takeWhile_cons_of_neg (by simp [hc]),
    List.dropWhile_cons_of_neg (by simp [hc])]
  rfl

theorem lastSpace : Reads [CodePoint.ofChar ' '] [.space] :=
  reads_nil.cons [] rfl rfl

theorem quote (h : Reads rest lexemes) (t : Text) :
    Reads (Literal.quote t ++ rest) (.literal (Literal.kept t) :: lexemes) :=
  h.cons _ rfl (Lexeme.scan_quoted CodePoint.isPrintable t rest)

theorem pop (h : Reads rest lexemes) (hend : ColorSpec.begins rest = false) :
    Reads (CodePoint.ofChar '}' :: rest) (.transition .pop none :: lexemes) :=
  h.cons [] rfl (Lexeme.scanTransition_of_not_begins .pop hend)

theorem transition (h : Reads rest lexemes) (t : Transition) {raw : Text} {spec : Spec}
    (hbegins : ColorSpec.begins (raw ++ rest) = true)
    (hscan : ColorSpec.scan (raw ++ rest) = .ok (spec, rest)) :
    Reads (t.symbol :: raw ++ rest) (.transition t (some spec) :: lexemes) := by
  have hline : t.symbol.isLineEnd = false := by cases t <;> rfl
  refine h.cons raw hline ?_
  rw [Lexeme.scan_transition, Lexeme.scanTransition, if_pos hbegins, hscan]

theorem spec (h : Reads rest lexemes) {c : CodePoint} {raw : Text} {spec : Spec}
    (hbegins : ColorSpec.begins (c :: (raw ++ rest)) = true)
    (hscan : ColorSpec.scan (c :: (raw ++ rest)) = .ok (spec, rest)) :
    Reads (c :: raw ++ rest) (.spec spec :: lexemes) := by
  have hline : c.isLineEnd = false := by
    rw [Bool.eq_false_iff, Ne, CodePoint.isLineEnd_iff, not_or]
    exact ⟨ColorSpec.ne_of_begins hbegins rfl, ColorSpec.ne_of_begins hbegins rfl⟩
  refine h.cons raw hline ?_
  rw [Lexeme.scan_spec hbegins, Lexeme.scanSpec, hscan]

end Reads

end Lexing

end ShellPrompt
