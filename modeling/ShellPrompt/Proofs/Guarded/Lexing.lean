import Mathlib.Data.List.TakeWhile
import ShellPrompt.Proofs.Guarded.Glyphs
/-!
Lexing with guards. A color is made of six digits and of components in their range, and letters and
symbols are looked up where they are taken to stand. Main statement: `Guarded.ofRest_eq`, no markup
leads to a slip.
-/

set_option autoImplicit false

namespace ShellPrompt

namespace Guarded

section Colors

variable {ε : Type}

def hashColor (digits : Text) : Guarded ε Color := do
  require (digits.length = 6)
  let red ← number (digits.take 2)
  let green ← number ((digits.drop 2).take 2)
  let blue ← number ((digits.drop 4).take 2)
  require (red ≤ 255 ∧ green ≤ 255 ∧ blue ≤ 255)
  return .rgb (Rgb.ofNumbers red green blue)

def letters : Text := BasicColor.all.map BasicColor.letter

def letterColor (c : CodePoint) : Guarded ε Color := do
  require (c ∈ letters)
  let place ← placeOf c letters
  let color ← element BasicColor.all place
  return .basic color

def symbols : Text := Transition.all.map Transition.symbol

def transitionOf (c : CodePoint) : Guarded ε Transition := do
  require (c ∈ symbols)
  let place ← placeOf c symbols
  element Transition.all place

theorem hashColor_eq {digits : Text} (hlength : digits.length = 6)
    (hhex : ∀ c ∈ digits, c.isHexDigit = true) :
    (hashColor digits : Guarded ε Color) = .ok (.rgb (Rgb.ofHexDigits digits)) := by
  have htwo : ∀ i ≤ 4, ((digits.drop i).take 2).length = 2 := by
    intro i hi
    rw [List.length_take, List.length_drop]
    omega
  have hnumber : ∀ i ≤ 4, (number ((digits.drop i).take 2) : Guarded ε Nat) =
      .ok (Text.hexNumber ((digits.drop i).take 2)) := by
    intro i hi
    refine number_of_isHex ?_
    have hne : (digits.drop i).take 2 ≠ [] := by
      intro hnil
      have hlen := htwo i hi
      rw [hnil] at hlen
      cases hlen
    have hall : ((digits.drop i).take 2).all CodePoint.isHexDigit = true := by
      rw [List.all_eq_true]
      exact fun c hc => hhex c (List.mem_of_mem_drop (List.mem_of_mem_take hc))
    simp only [Text.isHex, hall, Bool.and_true, Bool.not_eq_true', List.isEmpty_eq_false_iff]
    exact hne
  have hbyte : ∀ i ≤ 4, Text.hexNumber ((digits.drop i).take 2) ≤ 255 := by
    intro i hi
    have hlt := Text.hexNumber_lt ((digits.drop i).take 2)
    rw [htwo i hi] at hlt
    omega
  have hred := hnumber 0 (by decide)
  rw [List.drop_zero] at hred
  have hbytes : Text.hexNumber (digits.take 2) ≤ 255 ∧
      Text.hexNumber ((digits.drop 2).take 2) ≤ 255 ∧
      Text.hexNumber ((digits.drop 4).take 2) ≤ 255 :=
    ⟨hbyte 0 (by decide), hbyte 2 (by decide), hbyte 4 (by decide)⟩
  simp only [hashColor, require_of hlength, hred, hnumber 2 (by decide), hnumber 4 (by decide),
    require_of hbytes, bind, Except.bind, pure, Except.pure]
  rfl

@[simp] theorem letterColor_letter (color : BasicColor) :
    (letterColor color.letter : Guarded ε Color) = .ok (.basic color) := by
  cases color <;> rfl

@[simp] theorem transitionOf_symbol (t : Transition) :
    (transitionOf t.symbol : Guarded ε Transition) = .ok t := by
  cases t <;> rfl

theorem mem_letters_iff {c : CodePoint} : c ∈ letters ↔ (BasicColor.ofLetter? c).isSome := by
  rw [Option.isSome_iff_exists]
  constructor
  · intro h
    obtain ⟨color, -, rfl⟩ := List.mem_map.mp h
    exact ⟨color, BasicColor.ofLetter?_letter color⟩
  · rintro ⟨color, h⟩
    rw [BasicColor.ofLetter?_eq_some_iff.mp h]
    cases color <;> decide

theorem mem_symbols_iff {c : CodePoint} : c ∈ symbols ↔ (Transition.ofSymbol? c).isSome := by
  rw [Option.isSome_iff_exists]
  constructor
  · intro h
    obtain ⟨t, -, rfl⟩ := List.mem_map.mp h
    exact ⟨t, Transition.ofSymbol?_eq_some_iff.mpr rfl⟩
  · rintro ⟨t, h⟩
    rw [Transition.ofSymbol?_eq_some_iff.mp h]
    cases t <;> decide

end Colors

def scanColor : Text → Guarded ScanError (Color × Text)
  | [] => throw (.fault ⟨[], .unknownColor none⟩)
  | c :: rest =>
    if c = '#' then
      if (ColorSpec.leadingDigits rest).length < 6 then
        throw (.fault ⟨c :: rest, .malformedColor (ColorSpec.leadingDigits rest)⟩)
      else do
        let color ← hashColor (ColorSpec.leadingDigits rest)
        return (color, rest.drop 6)
    else if c ∈ letters then do
      let color ← letterColor c
      return (color, rest)
    else
      throw (.fault ⟨c :: rest, .unknownColor (some c)⟩)

def scanAttribute : Text → Guarded ScanError (Spec × Text)
  | [] => throw (.fault ⟨[], .unknownColor none⟩)
  | c :: rest =>
    if c = '!' then return ({ Spec.empty with bold := true }, rest)
    else if c = '/' then return ({ Spec.empty with italic := true }, rest)
    else if c = ':' then do
      let (color, rest) ← scanColor rest
      return ({ Spec.empty with background := some color }, rest)
    else do
      let (color, rest) ← scanColor (c :: rest)
      return ({ Spec.empty with foreground := some color }, rest)

theorem scanColor_eq (s : Text) : scanColor s = ofExcept (ColorSpec.scanColor s) := by
  cases s with
  | nil => rfl
  | cons c rest =>
    rw [scanColor, ColorSpec.scanColor]
    by_cases hhash : c = CodePoint.ofChar '#'
    · rw [if_pos hhash, if_pos hhash]
      by_cases hshort : (ColorSpec.leadingDigits rest).length < 6
      · rw [if_pos hshort, if_pos hshort]
        rfl
      · have hlength : (ColorSpec.leadingDigits rest).length = 6 := by
          have hle : (ColorSpec.leadingDigits rest).length ≤ (rest.take 6).length :=
            (List.takeWhile_prefix _).length_le
          rw [List.length_take] at hle
          omega
        have hhex : ∀ c ∈ ColorSpec.leadingDigits rest, c.isHexDigit = true :=
          fun _ hc => List.mem_takeWhile_imp hc
        rw [if_neg hshort, if_neg hshort, hashColor_eq hlength hhex]
        rfl
    · rw [if_neg hhash, if_neg hhash]
      cases hcolor : BasicColor.ofLetter? c with
      | none =>
        have hnot : c ∉ letters := by simp [mem_letters_iff, hcolor]
        rw [if_neg hnot]
        rfl
      | some color =>
        have hletter : c ∈ letters := by simp [mem_letters_iff, hcolor]
        rw [if_pos hletter, BasicColor.ofLetter?_eq_some_iff.mp hcolor, letterColor_letter]
        rfl

theorem scanAttribute_eq (s : Text) :
    scanAttribute s = ofExcept (ColorSpec.scanAttribute s) := by
  cases s with
  | nil => rfl
  | cons c rest =>
    rw [scanAttribute, ColorSpec.scanAttribute, scanColor_eq, scanColor_eq]
    by_cases hbold : c = CodePoint.ofChar '!'
    · rw [if_pos hbold, if_pos hbold]
      rfl
    by_cases hitalic : c = CodePoint.ofChar '/'
    · rw [if_neg hbold, if_neg hbold, if_pos hitalic, if_pos hitalic]
      rfl
    rw [if_neg hbold, if_neg hbold, if_neg hitalic, if_neg hitalic]
    by_cases hground : c = CodePoint.ofChar ':'
    · rw [if_pos hground, if_pos hground]
      cases ColorSpec.scanColor rest <;> rfl
    · rw [if_neg hground, if_neg hground]
      cases ColorSpec.scanColor (c :: rest) <;> rfl

def scanAfter (spec : Spec) (s : Text) : Guarded ScanError (Spec × Text) :=
  if ColorSpec.begins s then
    match _h : scanAttribute s with
    | .error halt => .error halt
    | .ok (next, rest) => scanAfter (spec.andThen next) rest
  else .ok (spec, s)
termination_by s.length
decreasing_by
  rw [scanAttribute_eq, ofExcept_eq_ok_iff] at _h
  exact ColorSpec.length_lt_of_scanAttribute _h

def scanTransition : Text → Guarded ScanError (Lexeme × Text)
  | [] => .error (.slip .assertion)
  | c :: rest => do
    let t ← transitionOf c
    if ColorSpec.begins rest then
      let (spec, rest) ← scanAfter Spec.empty rest
      return (.transition t (some spec), rest)
    else
      return (.transition t none, rest)

def scanSpec (s : Text) : Guarded ScanError (Lexeme × Text) := do
  let (spec, rest) ← scanAfter Spec.empty s
  return (.spec spec, rest)

theorem scanAfter_eq (spec : Spec) (s : Text) :
    scanAfter spec s = ofExcept (ColorSpec.scanAfter spec s) := by
  fun_induction ColorSpec.scanAfter spec s with
  | case1 spec s hbegins e hattribute =>
    have hguarded := scanAttribute_eq s
    rw [hattribute] at hguarded
    rw [scanAfter, if_pos hbegins]
    split
    next hhalt =>
      rw [hguarded] at hhalt
      cases hhalt
      rfl
    next hfound =>
      rw [hguarded] at hfound
      cases hfound
  | case2 spec s hbegins next rest hattribute ih =>
    have hguarded := scanAttribute_eq s
    rw [hattribute] at hguarded
    rw [scanAfter, if_pos hbegins, ← ih]
    split
    next hhalt =>
      rw [hguarded] at hhalt
      cases hhalt
    next hfound =>
      rw [hguarded] at hfound
      cases hfound
      rfl
  | case3 spec s hbegins =>
    rw [scanAfter, if_neg hbegins]
    rfl

theorem scanTransition_eq (t : Transition) (s : Text) :
    scanTransition (t.symbol :: s) = ofExcept (Lexeme.scanTransition t s) := by
  rw [scanTransition, Lexeme.scanTransition, transitionOf_symbol, scanAfter_eq]
  simp only [bind, Except.bind]
  by_cases hbegins : ColorSpec.begins s = true
  · rw [if_pos hbegins, if_pos hbegins, ColorSpec.scan]
    cases ColorSpec.scanAfter Spec.empty s <;> rfl
  · rw [if_neg hbegins, if_neg hbegins]
    rfl

theorem scanSpec_eq (s : Text) : scanSpec s = ofExcept (Lexeme.scanSpec s) := by
  rw [scanSpec, Lexeme.scanSpec, scanAfter_eq, ColorSpec.scan]
  cases ColorSpec.scanAfter Spec.empty s <;> rfl

def scan (c : CodePoint) (rest : Text) : Guarded ScanError (Lexeme × Text) :=
  if GlyphList.separatorsOpening.isPrefixOf (c :: rest) ||
      GlyphList.invertedOpening.isPrefixOf (c :: rest) then
    scanSeparators (c :: rest)
  else if GlyphList.fillOpening.isPrefixOf (c :: rest) then scanFill (c :: rest)
  else if c = '*' then return (.segmentBreak, rest)
  else if c.isSpacing then
    return (.whitespace (c :: rest.takeWhile CodePoint.isSpacing),
      rest.dropWhile CodePoint.isSpacing)
  else if c = '"' then scanLiteral (c :: rest)
  else if c = '|' then return (.lineBreak, rest)
  else if c = '0' then return (.reset, rest)
  else if c ∈ symbols then scanTransition (c :: rest)
  else if ColorSpec.begins (c :: rest) then scanSpec (c :: rest)
  else throw (.fault ⟨c :: rest, .unrecognized c⟩)

theorem scan_eq (c : CodePoint) (rest : Text) : scan c rest = ofExcept (Lexeme.scan c rest) := by
  rw [scan, Lexeme.scan]
  by_cases hseparators : GlyphList.separatorsOpening.isPrefixOf (c :: rest) = true
  · rw [if_pos hseparators, if_pos (by rw [hseparators, Bool.true_or])]
    obtain ⟨inside, hinside⟩ := List.isPrefixOf_iff_prefix.mp hseparators
    cases hinside
    exact scanSeparators_eq inside
  by_cases hinverted : GlyphList.invertedOpening.isPrefixOf (c :: rest) = true
  · rw [if_neg hseparators, if_pos hinverted, if_pos (by rw [hinverted, Bool.or_true])]
    obtain ⟨inside, hinside⟩ := List.isPrefixOf_iff_prefix.mp hinverted
    cases hinside
    exact scanSeparators_inverted_eq inside
  rw [if_neg hseparators, if_neg hinverted, if_neg (by simp [hseparators, hinverted])]
  by_cases hfill : GlyphList.fillOpening.isPrefixOf (c :: rest) = true
  · rw [if_pos hfill, if_pos hfill]
    obtain ⟨inside, hinside⟩ := List.isPrefixOf_iff_prefix.mp hfill
    cases hinside
    exact scanFill_eq inside
  rw [if_neg hfill, if_neg hfill]
  by_cases hstar : c = CodePoint.ofChar '*'
  · rw [if_pos hstar, if_pos hstar]
    rfl
  rw [if_neg hstar, if_neg hstar]
  by_cases hspacing : c.isSpacing = true
  · rw [if_pos hspacing, if_pos hspacing]
    rfl
  rw [if_neg hspacing, if_neg hspacing]
  by_cases hquote : c = CodePoint.ofChar '"'
  · rw [if_pos hquote, if_pos hquote, hquote]
    exact scanLiteral_eq rest
  rw [if_neg hquote, if_neg hquote]
  by_cases hbar : c = CodePoint.ofChar '|'
  · rw [if_pos hbar, if_pos hbar]
    rfl
  rw [if_neg hbar, if_neg hbar]
  by_cases hzero : c = CodePoint.ofChar '0'
  · rw [if_pos hzero, if_pos hzero]
    rfl
  rw [if_neg hzero, if_neg hzero]
  cases hsymbol : Transition.ofSymbol? c with
  | some t =>
    have hmem : c ∈ symbols := by simp [mem_symbols_iff, hsymbol]
    rw [if_pos hmem, Transition.ofSymbol?_eq_some_iff.mp hsymbol]
    exact scanTransition_eq t rest
  | none =>
    have hnot : c ∉ symbols := by simp [mem_symbols_iff, hsymbol]
    rw [if_neg hnot]
    by_cases hbegins : ColorSpec.begins (c :: rest) = true
    · simp only [if_pos hbegins]
      exact scanSpec_eq (c :: rest)
    · simp only [if_neg hbegins]
      rfl

def ofRest (markup : Text) (position : Nat) : Text → Guarded Empty Lexing
  | [] => .ok ⟨[], none⟩
  | c :: s =>
    if c.isLineEnd then ofRest markup (position + 1) s
    else
      match _h : scan c s with
      | .error (.slip slip) => .error (.slip slip)
      | .error (.fault e) =>
        .ok ⟨[], some ⟨markup, position + ((c :: s).length - e.rest.length), e.fault⟩⟩
      | .ok (lexeme, rest) => do
        let raw := (c :: s).take ((c :: s).length - rest.length)
        let after ← ofRest markup (position + raw.length) rest
        return ⟨⟨position, raw, lexeme⟩ :: after.tokens, after.error⟩
termination_by s => s.length
decreasing_by
  · simp
  · rw [scan_eq, ofExcept_eq_ok_iff] at _h
    exact Lexeme.length_lt_of_scan _h

/-- No markup leads the lexer to a slip. -/
theorem ofRest_eq (markup : Text) (position : Nat) (s : Text) :
    ofRest markup position s = .ok (Lexing.ofRest markup position s) := by
  fun_induction Lexing.ofRest markup position s with
  | case1 => rw [ofRest]
  | case2 position c s hc ih => rw [ofRest, if_pos hc, ih]
  | case3 position c s hc e hscan =>
    have hguarded := scan_eq c s
    rw [hscan] at hguarded
    rw [ofRest, if_neg hc]
    split
    next hhalt =>
      rw [hguarded] at hhalt
      cases hhalt
    next hfault =>
      rw [hguarded] at hfault
      cases hfault
      rfl
    next hfound =>
      rw [hguarded] at hfound
      cases hfound
  | case4 position c s hc lexeme rest hscan raw after ih =>
    have hguarded := scan_eq c s
    rw [hscan] at hguarded
    rw [ofRest, if_neg hc]
    split
    next hhalt =>
      rw [hguarded] at hhalt
      cases hhalt
    next hfault =>
      rw [hguarded] at hfault
      cases hfault
    next hfound =>
      rw [hguarded] at hfound
      cases hfound
      simp only [bind, Except.bind]
      rw [ih]
      rfl

end Guarded

end ShellPrompt
