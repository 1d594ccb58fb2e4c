import Mathlib.Data.List.DropRight
import ShellPrompt.Proofs.Markup.Lists
import ShellPrompt.Proofs.Markup.Specs
/-!
Tokens: each kind of token is read exactly from the texts that the grammar gives it. What follows
a token matters only where the token could have gone on: after whitespace and after color specs.
-/

set_option autoImplicit false

namespace ShellPrompt

open Grammar

namespace Literal

theorem fourDigits?_append {digits : Text} (hlength : digits.length = 4)
    (hhex : ∀ c ∈ digits, c.isHexDigit = true) (rest : Text) :
    fourDigits? (digits ++ rest) = some (CodePoint.ofNat (Text.hexNumber digits), rest) := by
  have htake : (digits ++ rest).take 4 = digits := by
    rw [← hlength]
    exact List.take_left
  have hdrop : (digits ++ rest).drop 4 = rest := by
    rw [← hlength]
    exact List.drop_left
  simp only [fourDigits?, htake, hdrop]
  exact if_pos ⟨hlength, List.all_eq_true.mpr hhex⟩

theorem exists_digits_of_fourDigits?_eq_some {s rest : Text} {code : CodePoint}
    (h : fourDigits? s = some (code, rest)) :
    ∃ digits, s = digits ++ rest ∧ digits.length = 4 ∧ ∀ c ∈ digits, c.isHexDigit = true := by
  simp only [fourDigits?] at h
  by_cases hdigits : (s.take 4).length = 4 ∧ (s.take 4).all CodePoint.isHexDigit = true
  · rw [if_pos hdigits] at h
    cases h
    exact ⟨s.take 4, (List.take_append_drop 4 s).symm, hdigits.1, List.all_eq_true.mp hdigits.2⟩
  · rw [if_neg hdigits] at h
    cases h

theorem scanInside_plain {c : CodePoint} (hquote : c ≠ CodePoint.ofChar '"')
    (hbackslash : c ≠ CodePoint.ofChar '\\') (whole s : Text) :
    scanInside whole (c :: s) = prepend [c] (scanInside whole s) := by
  rw [scanInside.eq_def]
  simp only [if_neg hquote, if_neg hbackslash]

theorem exists_scanInside_escaped {c : CodePoint} (hu : c ≠ CodePoint.ofChar 'u') :
    ∃ front, ∀ whole s, scanInside whole (CodePoint.ofChar '\\' :: c :: s) =
      prepend front (scanInside whole s) := by
  by_cases hself : c = CodePoint.ofChar '"' ∨ c = CodePoint.ofChar '\\'
  · refine ⟨[c], fun whole s => ?_⟩
    rw [scanInside.eq_def]
    simp only [if_neg (show CodePoint.ofChar '\\' ≠ CodePoint.ofChar '"' by decide), if_true,
      if_pos hself]
  · refine ⟨[CodePoint.ofChar '\\', c], fun whole s => ?_⟩
    rw [scanInside.eq_def]
    simp only [if_neg (show CodePoint.ofChar '\\' ≠ CodePoint.ofChar '"' by decide), if_true,
      if_neg hself, if_neg hu]

theorem scanInside_number {s rest : Text} {code : CodePoint} (h : fourDigits? s = some (code, rest))
    (whole : Text) :
    scanInside whole (CodePoint.ofChar '\\' :: CodePoint.ofChar 'u' :: s) =
      prepend [code] (scanInside whole rest) := by
  rw [scanInside.eq_def]
  simp only [if_neg (show CodePoint.ofChar '\\' ≠ CodePoint.ofChar '"' by decide), if_true,
    if_neg (show ¬ (CodePoint.ofChar 'u' = CodePoint.ofChar '"' ∨
      CodePoint.ofChar 'u' = CodePoint.ofChar '\\') by decide)]
  split
  next hnone =>
    rw [h] at hnone
    cases hnone
  next hsome =>
    rw [h] at hsome
    cases hsome
    rfl

theorem exists_scanInside_eq_ok {inside : Text} (h : IsQuoted inside) :
    ∃ text, ∀ whole rest,
      scanInside whole (inside ++ CodePoint.ofChar '"' :: rest) = .ok (text, rest) := by
  induction h with
  | nil =>
    refine ⟨[], fun whole rest => ?_⟩
    rw [List.nil_append, scanInside.eq_def]
    rfl
  | @plain c s hquote hbackslash _ ih =>
    obtain ⟨text, htext⟩ := ih
    refine ⟨[c] ++ text, fun whole rest => ?_⟩
    rw [List.cons_append, scanInside_plain hquote hbackslash, htext whole rest]
    rfl
  | @escaped c s hu _ ih =>
    obtain ⟨text, htext⟩ := ih
    obtain ⟨front, hfront⟩ := exists_scanInside_escaped hu
    refine ⟨front ++ text, fun whole rest => ?_⟩
    rw [List.cons_append, List.cons_append, hfront, htext whole rest]
    rfl
  | @number digits s hlength hhex _ ih =>
    obtain ⟨text, htext⟩ := ih
    refine ⟨[CodePoint.ofNat (Text.hexNumber digits)] ++ text, fun whole rest => ?_⟩
    have hdigits := fourDigits?_append hlength hhex (s ++ CodePoint.ofChar '"' :: rest)
    rw [← List.append_assoc] at hdigits
    rw [List.cons_append, List.cons_append, List.cons_append, List.cons_append,
      scanInside_number hdigits, htext whole rest]
    rfl

theorem isQuoted_of_scanInside_eq_ok {whole s text rest : Text}
    (h : scanInside whole s = .ok (text, rest)) :
    ∃ inside, s = inside ++ CodePoint.ofChar '"' :: rest ∧ IsQuoted inside := by
  fun_induction scanInside whole s generalizing text with
  | case1 => cases h
  | case2 rest' =>
    cases h
    exact ⟨[], rfl, .nil⟩
  | case3 => cases h
  | case4 e after hself _ ih =>
    obtain ⟨_, hinner, _⟩ := prepend_eq_ok h
    obtain ⟨inside, hinside, hquoted⟩ := ih hinner
    have hu : e ≠ CodePoint.ofChar 'u' := by
      rintro rfl
      exact absurd hself (by decide)
    exact ⟨CodePoint.ofChar '\\' :: e :: inside, by rw [hinside]; rfl, .escaped hu hquoted⟩
  | case5 => cases h
  | case6 after code after' hfour _ _ ih =>
    obtain ⟨_, hinner, _⟩ := prepend_eq_ok h
    obtain ⟨inside, hinside, hquoted⟩ := ih hinner
    obtain ⟨digits, hdigits, hlength, hhex⟩ := exists_digits_of_fourDigits?_eq_some hfour
    refine ⟨CodePoint.ofChar '\\' :: CodePoint.ofChar 'u' :: digits ++ inside, ?_,
      .number hlength hhex hquoted⟩
    rw [hdigits, hinside]
    simp
  | case7 e after _ hu _ ih =>
    obtain ⟨_, hinner, _⟩ := prepend_eq_ok h
    obtain ⟨inside, hinside, hquoted⟩ := ih hinner
    exact ⟨CodePoint.ofChar '\\' :: e :: inside, by rw [hinside]; rfl, .escaped hu hquoted⟩
  | case8 c rest' hquote hbackslash ih =>
    obtain ⟨_, hinner, _⟩ := prepend_eq_ok h
    obtain ⟨inside, hinside, hquoted⟩ := ih hinner
    exact ⟨c :: inside, by rw [hinside]; rfl, .plain hquote hbackslash hquoted⟩

end Literal

namespace ColorSpec

theorem scanAfter_of_scanAttribute {before next : Spec} {s rest : Text} (hbegins : begins s = true)
    (h : scanAttribute s = .ok (next, rest)) :
    scanAfter before s = scanAfter (before.andThen next) rest := by
  rw [scanAfter, if_pos hbegins]
  split
  next hattribute =>
    rw [h] at hattribute
    cases hattribute
  next hattribute =>
    rw [h] at hattribute
    cases hattribute
    rfl

theorem scanAfter_of_not_begins {before : Spec} {s : Text} (h : begins s = false) :
    scanAfter before s = .ok (before, s) := by
  rw [scanAfter, if_neg (by simp [h])]

theorem begins_of_isAttribute {raw : Text} (h : IsAttribute raw) (rest : Text) :
    begins (raw ++ rest) = true := by
  obtain ⟨c, s, rfl, hhead⟩ := exists_head_of_isAttribute h
  exact begins_of_isHead hhead (s ++ rest)

theorem begins_of_isSpec {raw : Text} (h : IsSpec raw) (rest : Text) :
    begins (raw ++ rest) = true := by
  obtain ⟨c, s, rfl, hhead⟩ := exists_head_of_isSpec h
  exact begins_of_isHead hhead (s ++ rest)

theorem exists_scanAfter_eq_ok {raw : Text} (h : IsSpec raw) (before : Spec) :
    ∃ spec, ∀ rest, begins rest = false → scanAfter before (raw ++ rest) = .ok (spec, rest) := by
  induction h generalizing before with
  | @single first h =>
    obtain ⟨next, hnext⟩ := exists_scanAttribute_eq_ok h
    refine ⟨before.andThen next, fun rest hrest => ?_⟩
    rw [scanAfter_of_scanAttribute (begins_of_isAttribute h rest) (hnext rest),
      scanAfter_of_not_begins hrest]
  | @more first others h _ ih =>
    obtain ⟨next, hnext⟩ := exists_scanAttribute_eq_ok h
    obtain ⟨spec, hspec⟩ := ih (before.andThen next)
    refine ⟨spec, fun rest hrest => ?_⟩
    have hbegins := begins_of_isAttribute h (others ++ rest)
    rw [List.append_assoc, scanAfter_of_scanAttribute hbegins (hnext (others ++ rest)),
      hspec rest hrest]

theorem isSpec_of_scanAfter_eq_ok {before spec : Spec} {s rest : Text}
    (h : scanAfter before s = .ok (spec, rest)) :
    begins rest = false ∧ (begins s = true → ∃ raw, s = raw ++ rest ∧ IsSpec raw) := by
  fun_induction scanAfter before s with
  | case1 => cases h
  | case2 before s _ next after hattribute ih =>
    obtain ⟨hend, hmore⟩ := ih h
    obtain ⟨first, hfirst, hattr⟩ := isAttribute_of_scanAttribute_eq_ok hattribute
    refine ⟨hend, fun _ => ?_⟩
    by_cases hbegins : begins after = true
    · obtain ⟨others, hothers, hspec⟩ := hmore hbegins
      refine ⟨first ++ others, ?_, .more hattr hspec⟩
      rw [hfirst, hothers, List.append_assoc]
    · rw [scanAfter_of_not_begins (Bool.eq_false_iff.mpr hbegins)] at h
      cases h
      exact ⟨first, hfirst, .single hattr⟩
  | case3 before s hbegins =>
    cases h
    exact ⟨Bool.eq_false_iff.mpr hbegins, fun h => absurd h hbegins⟩

end ColorSpec

namespace GlyphList

def opening (inverted : Bool) : Text :=
  if inverted then invertedOpening else separatorsOpening

theorem exists_scanSeparators_eq_ok {parts : List Text} (inverted : Bool)
    (hcount : parts.length = 0 ∨ parts.length = 2 ∨ parts.length = 4)
    (h : ∀ item ∈ parts, IsItem item) :
    ∃ separators, ∀ rest, scanSeparators inverted (glyphList (opening inverted) parts ++ rest) =
      .ok (.separators separators, rest) := by
  obtain ⟨separators, hseparators⟩ :=
    exists_separatorsOf_eq_ok (opening inverted) inverted hcount h
  refine ⟨separators, fun rest => ?_⟩
  refine scan_glyphList h ?_ rest
  change (separatorsOf (opening inverted) _ inverted).map Lexeme.separators = _
  rw [hseparators]
  rfl

theorem exists_glyphList_of_scanSeparators_eq_ok (inverted : Bool) {s rest : Text}
    {lexeme : Lexeme} (h : scanSeparators inverted (opening inverted ++ s) = .ok (lexeme, rest)) :
    ∃ parts : List Text, opening inverted ++ s = glyphList (opening inverted) parts ++ rest ∧
      (parts.length = 0 ∨ parts.length = 2 ∨ parts.length = 4) ∧ ∀ item ∈ parts, IsItem item := by
  obtain ⟨contents, hs, hend, hmake⟩ := exists_contents_of_scan_eq_ok h
  change (separatorsOf (opening inverted) contents inverted).map Lexeme.separators = _ at hmake
  cases hseparators : separatorsOf (opening inverted) contents inverted with
  | error fault =>
    rw [hseparators] at hmake
    cases hmake
  | ok separators =>
    refine ⟨items contents, ?_, forall_isItem_of_separatorsOf_eq_ok hend hseparators⟩
    rw [hs, glyphList, join_items]
    simp

theorem exists_scanFill_eq_ok {parts : List Text} (hcount : 1 ≤ parts.length)
    (h : ∀ item ∈ parts, IsItem item) :
    ∃ fill, ∀ rest, scanFill (glyphList fillOpening parts ++ rest) = .ok (.fill fill, rest) := by
  obtain ⟨fill, hfill⟩ := exists_fillOf_eq_ok fillOpening hcount h
  refine ⟨fill, fun rest => ?_⟩
  refine scan_glyphList h ?_ rest
  rw [hfill]
  rfl

theorem exists_glyphList_of_scanFill_eq_ok {s rest : Text} {lexeme : Lexeme}
    (h : scanFill (fillOpening ++ s) = .ok (lexeme, rest)) :
    ∃ parts : List Text, fillOpening ++ s = glyphList fillOpening parts ++ rest ∧
      1 ≤ parts.length ∧ ∀ item ∈ parts, IsItem item := by
  obtain ⟨contents, hs, hend, hmake⟩ := exists_contents_of_scan_eq_ok h
  cases hfill : fillOf fillOpening contents with
  | error fault =>
    rw [hfill] at hmake
    cases hmake
  | ok fill =>
    refine ⟨items contents, ?_, forall_isItem_of_fillOf_eq_ok hend hfill⟩
    rw [hs, glyphList, join_items]
    simp

end GlyphList

namespace Lexeme

theorem exists_scanLiteral_eq_ok {inside : Text} (h : IsQuoted inside) (c : CodePoint) :
    ∃ text, ∀ rest, scanLiteral c (inside ++ CodePoint.ofChar '"' :: rest) =
      .ok (.literal text, rest) := by
  obtain ⟨text, htext⟩ := Literal.exists_scanInside_eq_ok h
  refine ⟨text, fun rest => ?_⟩
  rw [scanLiteral, htext]

theorem isQuoted_of_scanLiteral_eq_ok {c : CodePoint} {s rest : Text} {lexeme : Lexeme}
    (h : scanLiteral c s = .ok (lexeme, rest)) :
    ∃ inside, s = inside ++ CodePoint.ofChar '"' :: rest ∧ IsQuoted inside := by
  rw [scanLiteral] at h
  cases hinside : Literal.scanInside (c :: s) s with
  | error e =>
    rw [hinside] at h
    cases h
  | ok scanned =>
    rw [hinside] at h
    cases h
    exact Literal.isQuoted_of_scanInside_eq_ok hinside

theorem exists_scanSpec_eq_ok {raw : Text} (h : IsSpec raw) :
    ∃ attributes, ∀ rest, ColorSpec.begins rest = false →
      scanSpec (raw ++ rest) = .ok (.spec attributes, rest) := by
  obtain ⟨attributes, hattributes⟩ := ColorSpec.exists_scanAfter_eq_ok h Spec.empty
  refine ⟨attributes, fun rest hrest => ?_⟩
  rw [scanSpec, ColorSpec.scan, hattributes rest hrest]

theorem isSpec_of_scanSpec_eq_ok {s rest : Text} {lexeme : Lexeme}
    (hbegins : ColorSpec.begins s = true) (h : scanSpec s = .ok (lexeme, rest)) :
    ColorSpec.begins rest = false ∧ ∃ raw, s = raw ++ rest ∧ IsSpec raw := by
  rw [scanSpec, ColorSpec.scan] at h
  cases hscan : ColorSpec.scanAfter Spec.empty s with
  | error e =>
    rw [hscan] at h
    cases h
  | ok scanned =>
    rw [hscan] at h
    cases h
    obtain ⟨hend, hraw⟩ := ColorSpec.isSpec_of_scanAfter_eq_ok hscan
    exact ⟨hend, hraw hbegins⟩

theorem scanTransition_of_not_begins (t : Transition) {rest : Text}
    (h : ColorSpec.begins rest = false) :
    scanTransition t rest = .ok (.transition t none, rest) := by
  rw [scanTransition, if_neg (by simp [h])]

theorem exists_scanTransition_eq_ok (t : Transition) {raw : Text} (h : IsSpec raw) :
    ∃ attributes, ∀ rest, ColorSpec.begins rest = false →
      scanTransition t (raw ++ rest) = .ok (.transition t (some attributes), rest) := by
  obtain ⟨attributes, hattributes⟩ := ColorSpec.exists_scanAfter_eq_ok h Spec.empty
  refine ⟨attributes, fun rest hrest => ?_⟩
  rw [scanTransition, if_pos (ColorSpec.begins_of_isSpec h rest), ColorSpec.scan,
    hattributes rest hrest]

theorem isSpec_of_scanTransition_eq_ok {t : Transition} {s rest : Text} {lexeme : Lexeme}
    (h : scanTransition t s = .ok (lexeme, rest)) :
    ColorSpec.begins rest = false ∧ (s = rest ∨ ∃ raw, s = raw ++ rest ∧ IsSpec raw) := by
  rw [scanTransition] at h
  by_cases hbegins : ColorSpec.begins s = true
  · rw [if_pos hbegins, ColorSpec.scan] at h
    cases hscan : ColorSpec.scanAfter Spec.empty s with
    | error e =>
      rw [hscan] at h
      cases h
    | ok scanned =>
      rw [hscan] at h
      cases h
      obtain ⟨hend, hraw⟩ := ColorSpec.isSpec_of_scanAfter_eq_ok hscan
      exact ⟨hend, Or.inr (hraw hbegins)⟩
  · rw [if_neg hbegins] at h
    cases h
    exact ⟨Bool.eq_false_iff.mpr hbegins, Or.inl rfl⟩

/-- Where a token ends: text after it that it could not have gone on with. -/
def EndsAt : Lexeme → Text → Prop
  | whitespace _, rest => rest.dropWhile CodePoint.isSpacing = rest
  | transition _ _, rest => ColorSpec.begins rest = false
  | spec _, rest => ColorSpec.begins rest = false
  | _, _ => True

/--
A token is the longest one at its place, and what comes after it does not change how it is read,
as long as the token ends there.
-/
theorem exists_raw_of_scan_eq_ok {c : CodePoint} {s rest : Text} {lexeme : Lexeme}
    (h : scan c s = .ok (lexeme, rest)) :
    ∃ raw, s = raw ++ rest ∧ IsToken (c :: raw) ∧ lexeme.EndsAt rest ∧
      ∀ after, lexeme.EndsAt after → scan c (raw ++ after) = .ok (lexeme, after) := by
  revert h
  refine scan_cases (motive := fun c s scanned => scanned = .ok (lexeme, rest) →
    ∃ raw, s = raw ++ rest ∧ IsToken (c :: raw) ∧ lexeme.EndsAt rest ∧
      ∀ after, lexeme.EndsAt after → scan c (raw ++ after) = .ok (lexeme, after))
    ?separators ?inverted ?fill ?segmentBreak ?spacing ?quote ?lineBreak ?reset ?transition ?spec
    ?unrecognized c s
  case separators =>
    intro s h
    obtain ⟨parts, hs, hcount, hitems⟩ :=
      GlyphList.exists_glyphList_of_scanSeparators_eq_ok false h
    obtain ⟨separators, hscan⟩ := GlyphList.exists_scanSeparators_eq_ok false hcount hitems
    have hfound := hscan rest
    rw [← hs] at hfound
    cases h.symm.trans hfound
    exact ⟨_, (List.cons.inj hs).2, .separators hcount hitems, trivial, fun after _ => hscan after⟩
  case inverted =>
    intro s h
    obtain ⟨parts, hs, hcount, hitems⟩ :=
      GlyphList.exists_glyphList_of_scanSeparators_eq_ok true h
    obtain ⟨separators, hscan⟩ := GlyphList.exists_scanSeparators_eq_ok true hcount hitems
    have hfound := hscan rest
    rw [← hs] at hfound
    cases h.symm.trans hfound
    exact ⟨_, (List.cons.inj hs).2, .inverted hcount hitems, trivial, fun after _ => hscan after⟩
  case fill =>
    intro s h
    obtain ⟨parts, hs, hcount, hitems⟩ := GlyphList.exists_glyphList_of_scanFill_eq_ok h
    obtain ⟨fill, hscan⟩ := GlyphList.exists_scanFill_eq_ok hcount hitems
    have hfound := hscan rest
    rw [← hs] at hfound
    cases h.symm.trans hfound
    exact ⟨_, (List.cons.inj hs).2, .fill hcount hitems, trivial, fun after _ => hscan after⟩
  case segmentBreak =>
    intro s h
    cases h
    exact ⟨[], rfl, .segmentBreak, trivial, fun _ _ => rfl⟩
  case spacing =>
    intro c s hc h
    cases h
    refine ⟨s.takeWhile CodePoint.isSpacing, List.takeWhile_append_dropWhile.symm,
      .whitespace (by simp) ?_, ?_, ?_⟩
    · intro d hd
      rcases List.mem_cons.mp hd with rfl | hd
      · exact CodePoint.isSpacing_iff.mp hc
      · exact CodePoint.isSpacing_iff.mp (List.mem_takeWhile_imp hd)
    · exact List.dropWhile_idempotent _ _
    · intro after hafter
      have hall : ∀ d ∈ s.takeWhile CodePoint.isSpacing, d.isSpacing = true :=
        fun d hd => List.mem_takeWhile_imp hd
      have hnone : after.takeWhile CodePoint.isSpacing = [] := by
        have hsplit := List.takeWhile_append_dropWhile (p := CodePoint.isSpacing) (l := after)
        rw [hafter] at hsplit
        exact List.append_left_eq_self.mp hsplit
      rw [scan_spacing hc, List.takeWhile_append_of_pos hall, List.dropWhile_append_of_pos hall,
        hnone, hafter, List.append_nil]
  case quote =>
    intro s h
    obtain ⟨inside, hs, hquoted⟩ := isQuoted_of_scanLiteral_eq_ok h
    obtain ⟨text, hscan⟩ := exists_scanLiteral_eq_ok hquoted '"'
    have hfound := hscan rest
    rw [← hs] at hfound
    cases h.symm.trans hfound
    refine ⟨inside ++ [CodePoint.ofChar '"'], ?_, .literal hquoted, trivial, fun after _ => ?_⟩
    · rw [hs, List.append_assoc]
      rfl
    · rw [List.append_assoc]
      exact hscan after
  case lineBreak =>
    intro s h
    cases h
    exact ⟨[], rfl, .lineBreak, trivial, fun _ _ => rfl⟩
  case reset =>
    intro s h
    cases h
    exact ⟨[], rfl, .reset, trivial, fun _ _ => rfl⟩
  case transition =>
    intro t s h
    obtain ⟨hend, rfl | ⟨raw, hs, hspec⟩⟩ := isSpec_of_scanTransition_eq_ok h
    · cases h.symm.trans (scanTransition_of_not_begins t hend)
      refine ⟨[], rfl, .transition ?_, hend, fun after hafter => ?_⟩
      · cases t <;> decide
      · rw [scan_transition, List.nil_append, scanTransition_of_not_begins t hafter]
    · obtain ⟨attributes, hscan⟩ := exists_scanTransition_eq_ok t hspec
      have hfound := hscan rest hend
      rw [← hs] at hfound
      cases h.symm.trans hfound
      refine ⟨raw, hs, .transitionSpec ?_ hspec, hend, fun after hafter => ?_⟩
      · cases t <;> decide
      · rw [scan_transition, hscan after hafter]
  case spec =>
    intro c s hbegins h
    obtain ⟨hend, raw, hs, hspec⟩ := isSpec_of_scanSpec_eq_ok hbegins h
    obtain ⟨attributes, hscan⟩ := exists_scanSpec_eq_ok hspec
    have hfound := hscan rest hend
    rw [← hs] at hfound
    cases h.symm.trans hfound
    obtain ⟨d, others, rfl, hd⟩ := ColorSpec.exists_head_of_isSpec hspec
    obtain ⟨rfl, hrest⟩ : c = d ∧ s = others ++ rest := List.cons.inj hs
    refine ⟨others, hrest, .spec hspec, hend, fun after hafter => ?_⟩
    rw [scan_spec (ColorSpec.begins_of_isHead hd (others ++ after))]
    exact hscan after hafter
  case unrecognized =>
    intro c s _ h
    cases h

end Lexeme

end ShellPrompt
