import ShellPrompt.Markup.Lexing
import ShellPrompt.Proofs.Guarded.Basic
import ShellPrompt.Proofs.Text.Hexadecimal
/-!
Glyph lists and literals read with guards: the characters that they are taken to begin with are
checked, and so are digits that are made a number and numbers that are made a character.
-/

set_option autoImplicit false

namespace ShellPrompt

namespace Guarded

def codePoint? (item : Text) : Guarded MarkupFault (Option CodePoint) :=
  if 1 < item.length && Text.isHex item then do
    let n ← number item
    if 0x10FFFF < n then
      throw (.fault (.notACodePoint item))
    let c ← character n
    return some c
  else
    return none

def separator (item : Text) : Guarded MarkupFault Text := do
  match ← codePoint? item with
  | none => return item
  | some c => return [c]

def fillGlyphs (item : Text) : Guarded MarkupFault (List FillGlyph) :=
  if item = [CodePoint.ofChar '#'] then
    return [.repeatLast]
  else do
    match ← codePoint? item with
    | none => return item.map .glyph
    | some c => return [.glyph c]

def separatorsOf (opening contents : Text) (inverted : Bool) :
    Guarded MarkupFault Lexeme := do
  if (GlyphList.items contents).any List.isEmpty then
    throw (.fault (.emptyGlyph (GlyphList.raw opening contents)))
  let glyphs ← (GlyphList.items contents).mapM separator
  match GlyphSet.ofList? glyphs with
  | none => throw (.fault (.separatorCount glyphs.length (GlyphList.raw opening contents)))
  | some set => return .separators ⟨set, inverted⟩

def fillOf (opening contents : Text) : Guarded MarkupFault Lexeme := do
  if (GlyphList.items contents).any List.isEmpty then
    throw (.fault (.emptyGlyph (GlyphList.raw opening contents)))
  let glyphs ← (GlyphList.items contents).mapM fillGlyphs
  match Fill.ofList? glyphs.flatten with
  | none => throw (.fault (.emptyFill (GlyphList.raw opening contents)))
  | some fill => return .fill fill

def scanList (opening : Text) (lexeme : Text → Guarded MarkupFault Lexeme) (s inside : Text) :
    Guarded ScanError (Lexeme × Text) :=
  match Text.cut? ')' inside with
  | none => throw (.fault ⟨s, .unterminatedList opening⟩)
  | some (contents, rest) => do
    let lexeme ← mapFault (ScanError.mk s) (lexeme contents)
    return (lexeme, rest)

def scanSeparators (s : Text) : Guarded ScanError (Lexeme × Text) := do
  let rest ← expect 'S' s
  if rest.head? = some (CodePoint.ofChar '!') then
    let rest ← expect '(' (rest.drop 1)
    scanList GlyphList.invertedOpening (separatorsOf GlyphList.invertedOpening · true) s rest
  else
    let rest ← expect '(' rest
    scanList GlyphList.separatorsOpening (separatorsOf GlyphList.separatorsOpening · false) s rest

def scanFill (s : Text) : Guarded ScanError (Lexeme × Text) := do
  let rest ← expect 'F' s
  let rest ← expect '(' rest
  scanList GlyphList.fillOpening (fillOf GlyphList.fillOpening) s rest

theorem codePoint?_eq (item : Text) :
    codePoint? item = ofExcept (GlyphList.codePoint? item) := by
  rw [codePoint?, GlyphList.codePoint?]
  by_cases hhex : (1 < item.length && Text.isHex item) = true
  · have hdigits := (Bool.and_eq_true_iff.mp hhex).2
    rw [if_pos hhex, if_pos hhex, number_of_isHex hdigits]
    by_cases hrange : Text.hexNumber item < 0x110000
    · have hnot : ¬ 0x10FFFF < Text.hexNumber item := by omega
      simp only [if_pos hrange, character_of_lt hrange, bind, Except.bind, if_neg hnot]
      rfl
    · have hover : 0x10FFFF < Text.hexNumber item := by omega
      simp only [if_neg hrange, bind, Except.bind, if_pos hover]
      rfl
  · rw [if_neg hhex, if_neg hhex]
    rfl

theorem separator_eq (item : Text) : separator item = ofExcept (GlyphList.separator item) := by
  rw [separator, GlyphList.separator, codePoint?_eq]
  cases GlyphList.codePoint? item with
  | error fault => rfl
  | ok found => cases found <;> rfl

theorem fillGlyphs_eq (item : Text) :
    fillGlyphs item = ofExcept (GlyphList.fillGlyphs item) := by
  rw [fillGlyphs, GlyphList.fillGlyphs, codePoint?_eq]
  by_cases hrepeat : item = [CodePoint.ofChar '#']
  · rw [if_pos hrepeat, if_pos hrepeat]
    rfl
  · rw [if_neg hrepeat, if_neg hrepeat]
    cases GlyphList.codePoint? item with
    | error fault => rfl
    | ok found => cases found <;> rfl

theorem separatorsOf_eq (opening contents : Text) (inverted : Bool) :
    separatorsOf opening contents inverted =
      ofExcept ((GlyphList.separatorsOf opening contents inverted).map .separators) := by
  rw [separatorsOf, GlyphList.separatorsOf, mapM_eq_ofExcept separator_eq]
  by_cases hempty : (GlyphList.items contents).any List.isEmpty = true
  · simp only [if_pos hempty]
    rfl
  · simp only [if_neg hempty]
    cases (GlyphList.items contents).mapM GlyphList.separator with
    | error fault => rfl
    | ok glyphs =>
      simp only [bind, Except.bind, pure, Except.pure, ofExcept_ok]
      cases GlyphSet.ofList? glyphs <;> rfl

theorem fillOf_eq (opening contents : Text) :
    fillOf opening contents = ofExcept ((GlyphList.fillOf opening contents).map .fill) := by
  rw [fillOf, GlyphList.fillOf, mapM_eq_ofExcept fillGlyphs_eq]
  by_cases hempty : (GlyphList.items contents).any List.isEmpty = true
  · simp only [if_pos hempty]
    rfl
  · simp only [if_neg hempty]
    cases (GlyphList.items contents).mapM GlyphList.fillGlyphs with
    | error fault => rfl
    | ok glyphs =>
      simp only [bind, Except.bind, pure, Except.pure, ofExcept_ok]
      cases Fill.ofList? glyphs.flatten <;> rfl

theorem scanList_eq {opening s inside : Text} {guarded : Text → Guarded MarkupFault Lexeme}
    {lexeme : Text → Except MarkupFault Lexeme}
    (h : ∀ contents, guarded contents = ofExcept (lexeme contents))
    (hinside : s.drop opening.length = inside) :
    scanList opening guarded s inside = ofExcept (GlyphList.scan opening lexeme s) := by
  rw [scanList, GlyphList.scan, hinside]
  cases Text.cut? ')' inside with
  | none => rfl
  | some parts =>
    simp only [h]
    cases lexeme parts.1 <;> rfl

theorem scanSeparators_eq (s : Text) :
    scanSeparators (CodePoint.ofChar 'S' :: CodePoint.ofChar '(' :: s) =
      ofExcept (GlyphList.scanSeparators false
        (CodePoint.ofChar 'S' :: CodePoint.ofChar '(' :: s)) :=
  scanList_eq (fun contents => separatorsOf_eq _ contents false) rfl

theorem scanSeparators_inverted_eq (s : Text) :
    scanSeparators (CodePoint.ofChar 'S' :: CodePoint.ofChar '!' :: CodePoint.ofChar '(' :: s) =
      ofExcept (GlyphList.scanSeparators true
        (CodePoint.ofChar 'S' :: CodePoint.ofChar '!' :: CodePoint.ofChar '(' :: s)) :=
  scanList_eq (fun contents => separatorsOf_eq _ contents true) rfl

theorem scanFill_eq (s : Text) :
    scanFill (CodePoint.ofChar 'F' :: CodePoint.ofChar '(' :: s) =
      ofExcept (GlyphList.scanFill (CodePoint.ofChar 'F' :: CodePoint.ofChar '(' :: s)) :=
  scanList_eq (fillOf_eq _) rfl

def fourDigits (s : Text) : Guarded MarkupFault (CodePoint × Text) :=
  if (s.take 4).length = 4 ∧ (s.take 4).all CodePoint.isHexDigit then do
    let n ← number (s.take 4)
    let c ← character n
    return (c, s.drop 4)
  else
    throw (.fault .malformedEscape)

theorem fourDigits_eq (s : Text) :
    fourDigits s =
      match Literal.fourDigits? s with
      | none => .error (.fault .malformedEscape)
      | some found => .ok found := by
  rw [fourDigits, Literal.fourDigits?]
  by_cases hdigits : (s.take 4).length = 4 ∧ (s.take 4).all CodePoint.isHexDigit
  · have hne : s.take 4 ≠ [] := by
      intro hnil
      rw [hnil] at hdigits
      cases hdigits.1
    have hhex : Text.isHex (s.take 4) = true := by
      simp only [Text.isHex, hdigits.2, Bool.and_true, Bool.not_eq_true', List.isEmpty_eq_false_iff]
      exact hne
    have hrange : Text.hexNumber (s.take 4) < 0x110000 := by
      have hlt := Text.hexNumber_lt (s.take 4)
      rw [hdigits.1] at hlt
      omega
    simp only [if_pos hdigits, number_of_isHex hhex, bind, Except.bind, character_of_lt hrange]
    rfl
  · simp only [if_neg hdigits]
    rfl

def prepend (front : Text) (x : Guarded ScanError (Text × Text)) :
    Guarded ScanError (Text × Text) := do
  let (text, rest) ← x
  return (front ++ text, rest)

def scanInside (whole : Text) : Text → Guarded ScanError (Text × Text)
  | [] => .error (.fault ⟨whole, .unterminatedLiteral⟩)
  | c :: rest =>
    if c = '"' then .ok ([], rest)
    else if c = '\\' then
      match rest with
      | [] => .error (.fault ⟨whole, .unterminatedLiteral⟩)
      | e :: after =>
        if e = '"' ∨ e = '\\' then prepend [e] (scanInside whole after)
        else if e = 'u' then
          match _h : fourDigits after with
          | .error halt => .error (halt.map (ScanError.mk (c :: e :: after)))
          | .ok (code, after) => prepend [code] (scanInside whole after)
        else prepend ['\\', e] (scanInside whole after)
    else prepend [c] (scanInside whole rest)
termination_by s => s.length
decreasing_by
  · simp only [List.length_cons]
    omega
  · rw [fourDigits_eq] at _h
    split at _h
    · cases _h
    next hfound =>
      cases _h
      have := Literal.length_of_fourDigits? hfound
      simp only [List.length_cons]
      omega
  · simp only [List.length_cons]
    omega
  · simp

def scanLiteral (s : Text) : Guarded ScanError (Lexeme × Text) := do
  let inside ← expect '"' s
  let (text, rest) ← scanInside s inside
  return (.literal text, rest)

theorem prepend_ofExcept (front : Text) (x : Scan Text) :
    prepend front (ofExcept x) = ofExcept (Literal.prepend front x) := by
  cases x <;> rfl

theorem scanInside_eq (whole s : Text) :
    scanInside whole s = ofExcept (Literal.scanInside whole s) := by
  fun_induction Literal.scanInside whole s with
  | case1 => rw [scanInside]; rfl
  | case2 rest => rw [scanInside.eq_def]; rfl
  | case3 => rw [scanInside.eq_def]; rfl
  | case4 e after hescape hne ih =>
    rw [scanInside, if_neg hne, if_pos rfl, ← prepend_ofExcept, ← ih]
    simp only [if_pos hescape]
  | case5 after hfour hescape hne =>
    have hguarded := fourDigits_eq after
    rw [hfour] at hguarded
    rw [scanInside, if_neg hne, if_pos rfl]
    simp only [if_neg hescape, if_pos]
    split
    next hhalt =>
      rw [hguarded] at hhalt
      cases hhalt
      rfl
    next hfound =>
      rw [hguarded] at hfound
      cases hfound
  | case6 after code rest hfour hescape hne ih =>
    have hguarded := fourDigits_eq after
    rw [hfour] at hguarded
    rw [scanInside, if_neg hne, if_pos rfl, ← prepend_ofExcept, ← ih]
    simp only [if_neg hescape, if_pos]
    split
    next hhalt =>
      rw [hguarded] at hhalt
      cases hhalt
    next hfound =>
      rw [hguarded] at hfound
      cases hfound
      rfl
  | case7 e after hescape hu hne ih =>
    rw [scanInside, if_neg hne, if_pos rfl, ← prepend_ofExcept, ← ih]
    simp only [if_neg hescape, if_neg hu]
  | case8 c rest hquote hbackslash ih =>
    rw [scanInside.eq_def, ← prepend_ofExcept, ← ih]
    simp only [if_neg hquote, if_neg hbackslash]

theorem scanLiteral_eq (s : Text) :
    scanLiteral (CodePoint.ofChar '"' :: s) = ofExcept (Lexeme.scanLiteral '"' s) := by
  rw [scanLiteral, Lexeme.scanLiteral, expect_cons]
  simp only [bind, Except.bind, scanInside_eq]
  cases Literal.scanInside (CodePoint.ofChar '"' :: s) s <;> rfl

end Guarded

end ShellPrompt
