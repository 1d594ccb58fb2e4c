import ShellPrompt.Proofs.Markup.Acceptance
/-!
Where the scanners find fault. Each fault is said with the markup it is found in: what the token
that fails has before the place of the fault, and how the markup goes on from there. Main statement:
whatever token fails, it does so at such a place (`Lexeme.exists_front_of_scan_eq_error`).
-/

set_option autoImplicit false

namespace ShellPrompt

open Grammar

namespace Grammar

def separatorsOpenings : List Text := [['S', '('], ['S', '!', '(']]

def listOpenings : List Text := ['F', '('] :: separatorsOpenings

structure IsPart (part : Text) : Prop where
  comma_not_mem : CodePoint.ofChar ',' ∉ part
  end_not_mem : CodePoint.ofChar ')' ∉ part

/-- What a color spec can have before a color: attributes, and a colon before a background. -/
inductive LeadsToColor : Text → Prop
  | foreground : LeadsToColor []
  | background : LeadsToColor [':']
  | attribute {first rest : Text} (h : IsAttribute first) (hrest : LeadsToColor rest) :
      LeadsToColor (first ++ rest)

/-- What a token can have before a color: the token is a color spec, or a transition with one. -/
inductive OpensColor : Text → Prop
  | spec {front : Text} (h : LeadsToColor front) : OpensColor front
  | transition {c : CodePoint} {front : Text} (hc : c ∈ (['\x7b', '\x7d', '<', '>'] : Text))
      (h : LeadsToColor front) : OpensColor (c :: front)

end Grammar

/--
`FoundAt fault front rest`: a token begins with `front`, without fault so far, and from there on the
markup is `rest`, which has this fault at its front. For an error of a whole literal or a whole
glyph list `front` is empty.
-/
inductive MarkupFault.FoundAt : MarkupFault → Text → Text → Prop
  /-- A letter always begins a token, if only one with a fault. -/
  | unrecognized {c : CodePoint} {rest : Text} (hletter : c.isLetter = false)
      (htoken : ∀ after, ¬ IsToken (c :: after)) : FoundAt (.unrecognized c) [] (c :: rest)
  | unterminatedLiteral {rest inside : Text} (hinside : IsQuoted inside)
      (hrest : rest = inside ∨ rest = inside ++ [CodePoint.ofChar '\\']) :
      FoundAt .unterminatedLiteral [] (CodePoint.ofChar '"' :: rest)
  | malformedEscape {inside after : Text} (hinside : IsQuoted inside)
      (hdigits : ∀ digits rest, after = digits ++ rest → digits.length = 4 →
        ¬ ∀ c ∈ digits, c.isHexDigit = true) :
      FoundAt .malformedEscape (CodePoint.ofChar '"' :: inside)
        (CodePoint.ofChar '\\' :: CodePoint.ofChar 'u' :: after)
  | unterminatedList {opening rest : Text}
      (hopening : opening ∈ listOpenings)
      (hend : CodePoint.ofChar ')' ∉ rest) :
      FoundAt (.unterminatedList opening) [] (opening ++ rest)
  | emptyGlyph {opening rest : Text} {items : List Text}
      (hopening : opening ∈ listOpenings)
      (hitems : ∀ item ∈ items, IsPart item) (hcount : 2 ≤ items.length) (hempty : [] ∈ items) :
      FoundAt (.emptyGlyph (glyphList opening items)) [] (glyphList opening items ++ rest)
  | notACodePoint {opening item rest : Text} {items : List Text}
      (hopening : opening ∈ listOpenings)
      (hitems : ∀ item ∈ items, IsPart item) (hitem : item ∈ items) (hlength : 2 ≤ item.length)
      (hhex : ∀ c ∈ item, c.isHexDigit = true) (hlarge : 0x10FFFF < Text.hexNumber item) :
      FoundAt (.notACodePoint item) [] (glyphList opening items ++ rest)
  | separatorCount {opening rest : Text} {items : List Text}
      (hopening : opening ∈ separatorsOpenings)
      (hitems : ∀ item ∈ items, IsPart item) (hcount : items.length ∉ [0, 2, 4]) :
      FoundAt (.separatorCount items.length (glyphList opening items)) []
        (glyphList opening items ++ rest)
  | emptyFill {rest : Text} :
      FoundAt (.emptyFill ['F', '(', ')']) [] ((['F', '(', ')'] : Text) ++ rest)
  | endOfMarkup {front : Text} (hfront : OpensColor front) :
      FoundAt (.unknownColor none) front []
  | unknownColor {front rest : Text} {c : CodePoint} (hfront : OpensColor front)
      (hhash : c ≠ CodePoint.ofChar '#')
      (hletter : c ∉ (['k', 'r', 'g', 'y', 'b', 'm', 'c', 'w'] : Text)) :
      FoundAt (.unknownColor (some c)) front (c :: rest)
  | malformedColor {front after digits : Text} (hfront : OpensColor front)
      (hdigits : digits = after.takeWhile CodePoint.isHexDigit) (hshort : digits.length < 6) :
      FoundAt (.malformedColor digits) front (CodePoint.ofChar '#' :: after)

open MarkupFault (FoundAt)

namespace Literal

theorem eq_error_of_prepend_eq_error {front : Text} {scanned : Scan Text} {e : ScanError}
    (h : prepend front scanned = .error e) : scanned = .error e := by
  cases scanned with
  | ok read => cases h
  | error e' => exact h

theorem not_digits_of_fourDigits?_eq_none {after : Text} (h : fourDigits? after = none)
    (digits rest : Text) (hafter : after = digits ++ rest) (hlength : digits.length = 4) :
    ¬ ∀ c ∈ digits, c.isHexDigit = true := by
  intro hhex
  rw [hafter, fourDigits?_append hlength hhex rest] at h
  cases h

theorem exists_inside_of_scanInside_eq_error {whole s : Text} {e : ScanError}
    (h : scanInside whole s = .error e) :
    ∃ inside rest, s = inside ++ rest ∧ IsQuoted inside ∧
      ((rest = [] ∨ rest = [CodePoint.ofChar '\\']) ∧ e = ⟨whole, .unterminatedLiteral⟩ ∨
        ∃ after, rest = CodePoint.ofChar '\\' :: CodePoint.ofChar 'u' :: after ∧
          fourDigits? after = none ∧ e = ⟨rest, .malformedEscape⟩) := by
  fun_induction scanInside whole s with
  | case1 =>
    cases h
    exact ⟨[], [], rfl, .nil, Or.inl ⟨Or.inl rfl, rfl⟩⟩
  | case2 => cases h
  | case3 =>
    cases h
    exact ⟨[], [CodePoint.ofChar '\\'], rfl, .nil, Or.inl ⟨Or.inr rfl, rfl⟩⟩
  | case4 c after hself _ ih =>
    obtain ⟨inside, rest, rfl, hinside, hrest⟩ := ih (eq_error_of_prepend_eq_error h)
    have hu : c ≠ CodePoint.ofChar 'u' := by
      rintro rfl
      exact absurd hself (by decide)
    exact ⟨CodePoint.ofChar '\\' :: c :: inside, rest, rfl, .escaped hu hinside, hrest⟩
  | case5 after hdigits =>
    cases h
    exact ⟨[], _, rfl, .nil, Or.inr ⟨after, rfl, hdigits, rfl⟩⟩
  | case6 after code after' hdigits _ _ ih =>
    obtain ⟨inside, rest, rfl, hinside, hrest⟩ := ih (eq_error_of_prepend_eq_error h)
    obtain ⟨digits, rfl, hlength, hhex⟩ := exists_digits_of_fourDigits?_eq_some hdigits
    refine ⟨CodePoint.ofChar '\\' :: CodePoint.ofChar 'u' :: digits ++ inside, rest, ?_,
      .number hlength hhex hinside, hrest⟩
    simp
  | case7 c after _ hu _ ih =>
    obtain ⟨inside, rest, rfl, hinside, hrest⟩ := ih (eq_error_of_prepend_eq_error h)
    exact ⟨CodePoint.ofChar '\\' :: c :: inside, rest, rfl, .escaped hu hinside, hrest⟩
  | case8 c s hquote hbackslash ih =>
    obtain ⟨inside, rest, rfl, hinside, hrest⟩ := ih (eq_error_of_prepend_eq_error h)
    exact ⟨c :: inside, rest, rfl, .plain hquote hbackslash hinside, hrest⟩

end Literal

namespace ColorSpec

theorem leadingDigits_eq_takeWhile {s : Text} (h : (leadingDigits s).length < 6) :
    leadingDigits s = s.takeWhile CodePoint.isHexDigit := by
  have hsplit : s.takeWhile CodePoint.isHexDigit =
      (s.take 6 ++ s.drop 6).takeWhile CodePoint.isHexDigit := by
    rw [List.take_append_drop]
  rw [hsplit, List.takeWhile_append]
  split
  next hall =>
    have hdrop : s.drop 6 = [] := by
      rw [leadingDigits, hall, List.length_take] at h
      exact List.drop_eq_nil_of_le (by omega)
    have hsame : leadingDigits s = s.take 6 := (List.takeWhile_prefix _).eq_of_length hall
    rw [hdrop, List.takeWhile_nil, List.append_nil, hsame]
  · rfl

theorem foundAt_of_scanColor_eq_error {s : Text} {e : ScanError} (h : scanColor s = .error e) :
    e.rest = s ∧ ∀ front, OpensColor front → FoundAt e.fault front s := by
  cases s with
  | nil =>
    cases h
    exact ⟨rfl, fun front hfront => .endOfMarkup hfront⟩
  | cons c s =>
    rw [scanColor] at h
    by_cases hhash : c = CodePoint.ofChar '#'
    · rw [if_pos hhash] at h
      by_cases hshort : (leadingDigits s).length < 6
      · rw [if_pos hshort] at h
        cases h
        refine ⟨rfl, fun front hfront => ?_⟩
        rw [hhash]
        exact .malformedColor hfront (leadingDigits_eq_takeWhile hshort) hshort
      · rw [if_neg hshort] at h
        cases h
    · rw [if_neg hhash] at h
      cases hletter : BasicColor.ofLetter? c with
      | some color =>
        rw [hletter] at h
        cases h
      | none =>
        rw [hletter] at h
        cases h
        refine ⟨rfl, fun front hfront => .unknownColor hfront hhash ?_⟩
        intro hmem
        obtain ⟨color, hcolor⟩ := BasicColor.mem_letters_iff.mp hmem
        rw [BasicColor.ofLetter?_eq_some_iff.mpr hcolor] at hletter
        cases hletter

theorem exists_lead_of_scanAttribute_eq_error {s : Text} {e : ScanError}
    (h : scanAttribute s = .error e) :
    ∃ lead, s = lead ++ e.rest ∧ LeadsToColor lead ∧ scanColor e.rest = .error e := by
  cases s with
  | nil =>
    cases h
    exact ⟨[], rfl, .foreground, rfl⟩
  | cons c s =>
    rw [scanAttribute] at h
    by_cases hbold : c = CodePoint.ofChar '!'
    · rw [if_pos hbold] at h
      cases h
    rw [if_neg hbold] at h
    by_cases hitalic : c = CodePoint.ofChar '/'
    · rw [if_pos hitalic] at h
      cases h
    rw [if_neg hitalic] at h
    by_cases hcolon : c = CodePoint.ofChar ':'
    · rw [if_pos hcolon] at h
      cases hscan : scanColor s with
      | ok result =>
        rw [hscan] at h
        cases h
      | error e' =>
        rw [hscan] at h
        cases h
        obtain ⟨hrest, -⟩ := foundAt_of_scanColor_eq_error hscan
        rw [hrest, hcolon]
        exact ⟨[CodePoint.ofChar ':'], rfl, .background, hscan⟩
    · rw [if_neg hcolon] at h
      cases hscan : scanColor (c :: s) with
      | ok result =>
        rw [hscan] at h
        cases h
      | error e' =>
        rw [hscan] at h
        cases h
        obtain ⟨hrest, -⟩ := foundAt_of_scanColor_eq_error hscan
        rw [hrest]
        exact ⟨[], rfl, .foreground, hscan⟩

theorem exists_lead_of_scanAfter_eq_error {before : Spec} {s : Text} {e : ScanError}
    (h : scanAfter before s = .error e) :
    ∃ lead, s = lead ++ e.rest ∧ LeadsToColor lead ∧ scanColor e.rest = .error e := by
  fun_induction scanAfter before s with
  | case1 before s _ e' hattribute =>
    cases h
    exact exists_lead_of_scanAttribute_eq_error hattribute
  | case2 before s _ next after hattribute ih =>
    obtain ⟨lead, hafter, hlead, hcolor⟩ := ih h
    obtain ⟨first, rfl, hfirst⟩ := isAttribute_of_scanAttribute_eq_ok hattribute
    refine ⟨first ++ lead, ?_, .attribute hfirst hlead, hcolor⟩
    rw [List.append_assoc, ← hafter]
  | case3 => cases h

end ColorSpec

namespace GlyphList

theorem raw_eq_glyphList (opening contents : Text) :
    raw opening contents = glyphList opening (items contents) := by
  rw [glyphList, join_items]
  rfl

theorem isPart_of_mem_items {contents : Text} (hend : CodePoint.ofChar ')' ∉ contents) :
    ∀ item ∈ items contents, IsPart item := by
  intro item hitem
  obtain ⟨hcomma, hclose⟩ := not_mem_of_mem_items hend hitem
  exact ⟨hcomma, hclose⟩

theorem two_le_length_items {contents : Text} (h : [] ∈ items contents) :
    2 ≤ (items contents).length := by
  have hjoin := join_items contents
  match hitems : items contents with
  | [] =>
    rw [hitems] at h
    cases h
  | [item] =>
    rw [hitems, List.mem_singleton] at h
    rw [hitems, ← h] at hjoin
    rw [← hjoin] at hitems
    cases hitems
  | _ :: _ :: _ => exact Nat.le_add_left 2 _

section Found

variable {opening contents : Text} {fault : MarkupFault}
  (hopening : opening ∈ listOpenings)
  (hend : CodePoint.ofChar ')' ∉ contents) (rest : Text)

include hopening hend

theorem foundAt_of_any_isEmpty (h : (items contents).any List.isEmpty = true) :
    FoundAt (.emptyGlyph (raw opening contents)) []
      (glyphList opening (items contents) ++ rest) := by
  obtain ⟨item, hitem, hnil⟩ := List.any_eq_true.mp h
  rw [List.isEmpty_iff.mp hnil] at hitem
  rw [raw_eq_glyphList]
  exact .emptyGlyph hopening (isPart_of_mem_items hend) (two_le_length_items hitem) hitem

theorem foundAt_of_codePoint?_eq_error {item : Text} (hitem : item ∈ items contents)
    (h : codePoint? item = .error fault) :
    FoundAt fault [] (glyphList opening (items contents) ++ rest) := by
  obtain ⟨rfl, hlength, hhex, hlarge⟩ := of_codePoint?_eq_error h
  exact .notACodePoint hopening (isPart_of_mem_items hend) hitem hlength hhex hlarge

end Found

theorem foundAt_of_separatorsOf_eq_error (inverted : Bool) {contents : Text} {fault : MarkupFault}
    (hend : CodePoint.ofChar ')' ∉ contents)
    (h : separatorsOf (opening inverted) contents inverted = .error fault) (rest : Text) :
    FoundAt fault [] (glyphList (opening inverted) (items contents) ++ rest) := by
  have hseparators : opening inverted ∈ separatorsOpenings := by cases inverted <;> decide
  have hopening : opening inverted ∈ listOpenings := List.mem_cons_of_mem _ hseparators
  rw [separatorsOf] at h
  by_cases hempty : (items contents).any List.isEmpty = true
  · rw [if_pos hempty] at h
    cases h
    exact foundAt_of_any_isEmpty hopening hend rest hempty
  rw [if_neg hempty] at h
  cases hglyphs : (items contents).mapM separator with
  | error fault' =>
    rw [hglyphs] at h
    cases h
    obtain ⟨item, hitem, hread⟩ := exists_mem_of_mapM_eq_error hglyphs
    exact foundAt_of_codePoint?_eq_error hopening hend rest hitem
      (codePoint?_of_separator_eq_error hread)
  | ok glyphs =>
    rw [hglyphs] at h
    cases hset : GlyphSet.ofList? glyphs with
    | some set =>
      simp only [hset] at h
      cases h
    | none =>
      simp only [hset] at h
      cases h
      have hlength := (forall₂_of_mapM_eq_ok hglyphs).length_eq
      rw [raw_eq_glyphList, ← hlength]
      refine .separatorCount hseparators (isPart_of_mem_items hend) ?_
      rw [hlength]
      intro hcount
      simp only [List.mem_cons, List.not_mem_nil, or_false] at hcount
      obtain ⟨set, hsome⟩ := exists_ofList?_eq_some hcount
      rw [hset] at hsome
      cases hsome

theorem foundAt_of_fillOf_eq_error {contents : Text} {fault : MarkupFault}
    (hend : CodePoint.ofChar ')' ∉ contents) (h : fillOf fillOpening contents = .error fault)
    (rest : Text) : FoundAt fault [] (glyphList fillOpening (items contents) ++ rest) := by
  have hopening : fillOpening ∈ listOpenings := List.mem_cons_self
  rw [fillOf] at h
  by_cases hempty : (items contents).any List.isEmpty = true
  · rw [if_pos hempty] at h
    cases h
    exact foundAt_of_any_isEmpty hopening hend rest hempty
  rw [if_neg hempty] at h
  cases hglyphs : (items contents).mapM fillGlyphs with
  | error fault' =>
    rw [hglyphs] at h
    cases h
    obtain ⟨item, hitem, hread⟩ := exists_mem_of_mapM_eq_error hglyphs
    exact foundAt_of_codePoint?_eq_error hopening hend rest hitem
      (codePoint?_of_fillGlyphs_eq_error hread)
  | ok glyphs =>
    rw [hglyphs] at h
    cases hitems : items contents with
    | nil =>
      have hjoin := join_items contents
      rw [hitems] at hjoin hglyphs
      cases hglyphs
      cases h
      rw [← hjoin]
      exact .emptyFill
    | cons first others =>
      have hfirst := ne_nil_of_not_any_isEmpty hempty (hitems ▸ List.mem_cons_self)
      rw [hitems] at hglyphs
      cases forall₂_of_mapM_eq_ok hglyphs with
      | cons hread _ =>
        obtain ⟨glyph, more, rfl⟩ :=
          List.exists_cons_of_ne_nil (ne_nil_of_fillGlyphs_eq_ok hfirst hread)
        cases h

theorem exists_foundAt_of_scan_eq_error {opening s : Text} {e : ScanError}
    {make : Text → Except MarkupFault Lexeme}
    (hopening : opening ∈ listOpenings)
    (hmake : ∀ contents fault, CodePoint.ofChar ')' ∉ contents → make contents = .error fault →
      ∀ rest, FoundAt fault [] (glyphList opening (items contents) ++ rest))
    (h : scan opening make (opening ++ s) = .error e) :
    e.rest = opening ++ s ∧ FoundAt e.fault [] e.rest := by
  rw [scan, List.drop_left] at h
  cases hcut : Text.cut? ')' s with
  | none =>
    rw [hcut] at h
    cases h
    exact ⟨rfl, .unterminatedList hopening (Text.cut?_eq_none_iff.mp hcut)⟩
  | some found =>
    obtain ⟨contents, rest⟩ := found
    obtain ⟨rfl, hend⟩ := Text.cut?_eq_some_iff.mp hcut
    cases hmade : make contents with
    | ok lexeme =>
      simp only [hcut, hmade] at h
      cases h
    | error fault =>
      simp only [hcut, hmade] at h
      cases h
      have hwhole : opening ++ (contents ++ CodePoint.ofChar ')' :: rest) =
          glyphList opening (items contents) ++ rest := by
        rw [← raw_eq_glyphList]
        simp [raw]
      refine ⟨rfl, ?_⟩
      rw [hwhole]
      exact hmake contents fault hend hmade rest

theorem exists_foundAt_of_scanSeparators_eq_error (inverted : Bool) {s : Text} {e : ScanError}
    (h : scanSeparators inverted (opening inverted ++ s) = .error e) :
    e.rest = opening inverted ++ s ∧ FoundAt e.fault [] e.rest := by
  refine exists_foundAt_of_scan_eq_error (by cases inverted <;> decide) ?_ h
  intro contents fault hend hmake rest
  change (separatorsOf (opening inverted) contents inverted).map Lexeme.separators = _ at hmake
  cases hseparators : separatorsOf (opening inverted) contents inverted with
  | ok separators =>
    rw [hseparators] at hmake
    cases hmake
  | error fault' =>
    rw [hseparators] at hmake
    cases hmake
    exact foundAt_of_separatorsOf_eq_error inverted hend hseparators rest

theorem exists_foundAt_of_scanFill_eq_error {s : Text} {e : ScanError}
    (h : scanFill (fillOpening ++ s) = .error e) :
    e.rest = fillOpening ++ s ∧ FoundAt e.fault [] e.rest := by
  refine exists_foundAt_of_scan_eq_error (by decide) ?_ h
  intro contents fault hend hmake rest
  cases hfill : fillOf fillOpening contents with
  | ok fill =>
    rw [hfill] at hmake
    cases hmake
  | error fault' =>
    rw [hfill] at hmake
    cases hmake
    exact foundAt_of_fillOf_eq_error hend hfill rest

end GlyphList

namespace Grammar

theorem IsToken.not_beginsNoToken {c : CodePoint} {s : Text} (h : IsToken (c :: s)) :
    ¬ c.BeginsNoToken := by
  rintro ⟨hmark, hspacing, htransition, hattribute⟩
  generalize htoken : c :: s = token at h
  have hspec : ∀ spec, IsSpec spec → c :: s ≠ spec := by
    rintro spec hspec rfl
    obtain ⟨d, rest, hd, hhead⟩ := ColorSpec.exists_head_of_isSpec hspec
    obtain ⟨rfl, rfl⟩ := List.cons.inj hd
    have hbegins := ColorSpec.begins_of_isHead hhead s
    rw [ColorSpec.begins_cons, hattribute] at hbegins
    cases hbegins
  cases h with
  | separators | inverted | fill =>
    cases htoken
    cases hattribute
  | segmentBreak | lineBreak | reset | literal =>
    cases htoken
    exact hmark (by decide)
  | whitespace hne hall =>
    subst htoken
    rw [CodePoint.isSpacing_iff.mpr (hall c List.mem_cons_self)] at hspacing
    cases hspacing
  | transition hc | transitionSpec hc _ =>
    cases htoken
    obtain ⟨t, rfl⟩ := exists_symbol_of_mem hc
    rw [Transition.ofSymbol?_eq_some_iff.mpr rfl] at htransition
    cases htransition
  | spec h => exact hspec _ h htoken

end Grammar

namespace Lexeme

/-- A token that is not read has a part without fault, and the fault is found right after it. -/
theorem exists_front_of_scan_eq_error {c : CodePoint} {s : Text} {e : ScanError}
    (h : scan c s = .error e) :
    ∃ front, c :: s = front ++ e.rest ∧ FoundAt e.fault front e.rest := by
  revert h
  refine scan_cases (motive := fun c s scanned => scanned = .error e →
    ∃ front, c :: s = front ++ e.rest ∧ FoundAt e.fault front e.rest)
    ?separators ?inverted ?fill ?segmentBreak ?spacing ?quote ?lineBreak ?reset ?transition ?spec
    ?unrecognized c s
  case separators =>
    intro s h
    obtain ⟨hrest, hfound⟩ := GlyphList.exists_foundAt_of_scanSeparators_eq_error false h
    exact ⟨[], hrest.symm, hfound⟩
  case inverted =>
    intro s h
    obtain ⟨hrest, hfound⟩ := GlyphList.exists_foundAt_of_scanSeparators_eq_error true h
    exact ⟨[], hrest.symm, hfound⟩
  case fill =>
    intro s h
    obtain ⟨hrest, hfound⟩ := GlyphList.exists_foundAt_of_scanFill_eq_error h
    exact ⟨[], hrest.symm, hfound⟩
  case segmentBreak | lineBreak | reset =>
    intro s h
    cases h
  case spacing =>
    intro c s _ h
    cases h
  case quote =>
    intro s h
    rw [scanLiteral] at h
    cases hinside : Literal.scanInside (CodePoint.ofChar '"' :: s) s with
    | ok read =>
      rw [hinside] at h
      cases h
    | error e' =>
      rw [hinside] at h
      cases h
      obtain ⟨inside, rest, rfl, hquoted, ⟨hend, rfl⟩ | ⟨after, rfl, hdigits, rfl⟩⟩ :=
        Literal.exists_inside_of_scanInside_eq_error hinside
      · refine ⟨[], rfl, .unterminatedLiteral hquoted ?_⟩
        rcases hend with rfl | rfl
        · exact Or.inl (List.append_nil inside)
        · exact Or.inr rfl
      · exact ⟨CodePoint.ofChar '"' :: inside, rfl, .malformedEscape hquoted
          (Literal.not_digits_of_fourDigits?_eq_none hdigits)⟩
  case transition =>
    intro t s h
    rw [scanTransition] at h
    split at h
    · cases hscan : ColorSpec.scan s with
      | ok read =>
        rw [hscan] at h
        cases h
      | error e' =>
        rw [hscan] at h
        cases h
        obtain ⟨lead, hs, hlead, hcolor⟩ := ColorSpec.exists_lead_of_scanAfter_eq_error hscan
        have hsymbol : t.symbol ∈ (['\x7b', '\x7d', '<', '>'] : Text) := by cases t <;> decide
        exact ⟨t.symbol :: lead, congrArg (t.symbol :: ·) hs,
          (ColorSpec.foundAt_of_scanColor_eq_error hcolor).2 _ (.transition hsymbol hlead)⟩
    · cases h
  case spec =>
    intro c s _ h
    rw [scanSpec] at h
    cases hscan : ColorSpec.scan (c :: s) with
    | ok read =>
      rw [hscan] at h
      cases h
    | error e' =>
      rw [hscan] at h
      cases h
      obtain ⟨lead, hs, hlead, hcolor⟩ := ColorSpec.exists_lead_of_scanAfter_eq_error hscan
      exact ⟨lead, hs, (ColorSpec.foundAt_of_scanColor_eq_error hcolor).2 _ (.spec hlead)⟩
  case unrecognized =>
    intro c s hc h
    cases h
    have hletter : c.isLetter = false := (Bool.or_eq_false_iff.mp hc.noAttribute).1
    exact ⟨[], rfl, .unrecognized hletter fun after htoken => htoken.not_beginsNoToken hc⟩

end Lexeme

end ShellPrompt
