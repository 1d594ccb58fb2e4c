import ShellPrompt.Markup.Lexing
/-!
Which token begins where. The first characters of the markup that is left decide what is read
next; every way to read a token is one of the cases of `Lexeme.scan_cases`.
-/

set_option autoImplicit false

namespace ShellPrompt

theorem CodePoint.isSpacing_iff {c : CodePoint} :
    c.isSpacing = true ↔ c = CodePoint.ofChar ' ' ∨ c = CodePoint.ofChar '\t' := by
  simp [isSpacing]

theorem CodePoint.isLineEnd_iff {c : CodePoint} :
    c.isLineEnd = true ↔ c = CodePoint.ofChar '\r' ∨ c = CodePoint.ofChar '\n' := by
  simp [isLineEnd]

namespace GlyphList

theorem begins_append {s : Text} (h : begins s = true) (t : Text) : begins (s ++ t) = true := by
  simp only [begins, Bool.or_eq_true, List.isPrefixOf_iff_prefix] at h ⊢
  rcases h with (h | h) | h
  · exact Or.inl (Or.inl (h.trans (List.prefix_append s t)))
  · exact Or.inl (Or.inr (h.trans (List.prefix_append s t)))
  · exact Or.inr (h.trans (List.prefix_append s t))

end GlyphList

namespace ColorSpec

theorem begins_cons (c : CodePoint) (s : Text) :
    begins (c :: s) = ((c.isLetter || isSymbol c) && !GlyphList.begins (c :: s)) := rfl

theorem not_begins_append {c : CodePoint} {s : Text} (h : begins (c :: s) = false) (t : Text) :
    begins (c :: s ++ t) = false := by
  rw [begins_cons, Bool.and_eq_false_iff] at h
  rw [List.cons_append, begins_cons, Bool.and_eq_false_iff]
  rcases h with h | h
  · exact Or.inl h
  · right
    rw [Bool.not_eq_false'] at h ⊢
    exact GlyphList.begins_append h t

theorem ne_of_begins {c d : CodePoint} {s : Text} (h : begins (c :: s) = true)
    (hd : (d.isLetter || isSymbol d) = false) : c ≠ d := by
  rintro rfl
  rw [begins_cons, hd] at h
  cases h

end ColorSpec

structure CodePoint.BeginsNoToken (c : CodePoint) : Prop where
  noMark : c ∉ (['*', '"', '|', '0'] : Text)
  noSpacing : c.isSpacing = false
  noTransition : Transition.ofSymbol? c = none
  noAttribute : (c.isLetter || ColorSpec.isSymbol c) = false

namespace Lexeme

theorem scan_transition (t : Transition) (s : Text) : scan t.symbol s = scanTransition t s := by
  cases t <;> rfl

theorem scan_spacing {c : CodePoint} (h : c.isSpacing = true) (s : Text) :
    scan c s = .ok (.whitespace (c :: s.takeWhile CodePoint.isSpacing),
      s.dropWhile CodePoint.isSpacing) := by
  rcases CodePoint.isSpacing_iff.mp h with rfl | rfl <;> rfl

theorem scan_spec {c : CodePoint} {s : Text} (h : ColorSpec.begins (c :: s) = true) :
    scan c s = scanSpec (c :: s) := by
  have hlist : GlyphList.begins (c :: s) = false := by
    rw [ColorSpec.begins_cons, Bool.and_eq_true, Bool.not_eq_true'] at h
    exact h.2
  simp only [GlyphList.begins, Bool.or_eq_false_iff] at hlist
  have hspacing : c.isSpacing = false := by
    rw [Bool.eq_false_iff, Ne, CodePoint.isSpacing_iff, not_or]
    exact ⟨ColorSpec.ne_of_begins h rfl, ColorSpec.ne_of_begins h rfl⟩
  have hsymbol : Transition.ofSymbol? c = none := by
    rw [Option.eq_none_iff_forall_ne_some]
    intro t ht
    refine ColorSpec.ne_of_begins h ?_ (Transition.ofSymbol?_eq_some_iff.mp ht)
    cases t <;> rfl
  rw [scan, hlist.1.1, hlist.1.2, hlist.2, hspacing, hsymbol, h]
  simp [ColorSpec.ne_of_begins h (d := CodePoint.ofChar '*') rfl,
    ColorSpec.ne_of_begins h (d := CodePoint.ofChar '"') rfl,
    ColorSpec.ne_of_begins h (d := CodePoint.ofChar '|') rfl,
    ColorSpec.ne_of_begins h (d := CodePoint.ofChar '0') rfl]

/--
What is read at the front of markup, case by case. To show something of `scan c s` for all markup,
it is enough to show it of each way to read.
-/
theorem scan_cases {motive : CodePoint → Text → Scan Lexeme → Prop}
    (separators : ∀ s, motive 'S' (CodePoint.ofChar '(' :: s)
      (GlyphList.scanSeparators false (CodePoint.ofChar 'S' :: CodePoint.ofChar '(' :: s)))
    (inverted : ∀ s, motive 'S' (CodePoint.ofChar '!' :: CodePoint.ofChar '(' :: s)
      (GlyphList.scanSeparators true
        (CodePoint.ofChar 'S' :: CodePoint.ofChar '!' :: CodePoint.ofChar '(' :: s)))
    (fill : ∀ s, motive 'F' (CodePoint.ofChar '(' :: s)
      (GlyphList.scanFill (CodePoint.ofChar 'F' :: CodePoint.ofChar '(' :: s)))
    (segmentBreak : ∀ s, motive '*' s (.ok (.segmentBreak, s)))
    (spacing : ∀ c s, c.isSpacing = true → motive c s
      (.ok (.whitespace (c :: s.takeWhile CodePoint.isSpacing),
        s.dropWhile CodePoint.isSpacing)))
    (quote : ∀ s, motive '"' s (scanLiteral '"' s))
    (lineBreak : ∀ s, motive '|' s (.ok (.lineBreak, s)))
    (reset : ∀ s, motive '0' s (.ok (.reset, s)))
    (transition : ∀ t s, motive (Transition.symbol t) s (scanTransition t s))
    (spec : ∀ c s, ColorSpec.begins (c :: s) = true → motive c s (scanSpec (c :: s)))
    (unrecognized : ∀ c s, c.BeginsNoToken → motive c s (.error ⟨c :: s, .unrecognized c⟩))
    (c : CodePoint) (s : Text) : motive c s (scan c s) := by
  by_cases hseparators : GlyphList.separatorsOpening.isPrefixOf (c :: s) = true
  · obtain ⟨rest, hrest⟩ := List.isPrefixOf_iff_prefix.mp hseparators
    cases hrest
    exact separators rest
  by_cases hinverted : GlyphList.invertedOpening.isPrefixOf (c :: s) = true
  · obtain ⟨rest, hrest⟩ := List.isPrefixOf_iff_prefix.mp hinverted
    cases hrest
    exact inverted rest
  by_cases hfill : GlyphList.fillOpening.isPrefixOf (c :: s) = true
  · obtain ⟨rest, hrest⟩ := List.isPrefixOf_iff_prefix.mp hfill
    cases hrest
    exact fill rest
  rw [scan, if_neg hseparators, if_neg hinverted, if_neg hfill]
  by_cases hstar : c = CodePoint.ofChar '*'
  · rw [if_pos hstar, hstar]
    exact segmentBreak s
  by_cases hspacing : c.isSpacing = true
  · rw [if_neg hstar, if_pos hspacing]
    exact spacing c s hspacing
  by_cases hquote : c = CodePoint.ofChar '"'
  · rw [if_neg hstar, if_neg hspacing, if_pos hquote, hquote]
    exact quote s
  by_cases hbar : c = CodePoint.ofChar '|'
  · rw [if_neg hstar, if_neg hspacing, if_neg hquote, if_pos hbar, hbar]
    exact lineBreak s
  by_cases hzero : c = CodePoint.ofChar '0'
  · rw [if_neg hstar, if_neg hspacing, if_neg hquote, if_neg hbar, if_pos hzero, hzero]
    exact reset s
  rw [if_neg hstar, if_neg hspacing, if_neg hquote, if_neg hbar, if_neg hzero]
  cases hsymbol : Transition.ofSymbol? c with
  | some t =>
    rw [Transition.ofSymbol?_eq_some_iff.mp hsymbol]
    exact transition t s
  | none =>
    by_cases hbegins : ColorSpec.begins (c :: s) = true
    · simp only [if_pos hbegins]
      exact spec c s hbegins
    · simp only [if_neg hbegins]
      refine unrecognized c s ⟨?_, Bool.eq_false_iff.mpr hspacing, hsymbol, ?_⟩
      · simp [hstar, hquote, hbar, hzero]
      · have hlist : GlyphList.begins (c :: s) = false := by
          simp [GlyphList.begins, hseparators, hinverted, hfill]
        rw [ColorSpec.begins_cons, hlist, Bool.not_false, Bool.and_true] at hbegins
        exact Bool.eq_false_iff.mpr hbegins

theorem exists_eq_of_scanList {α : Type} {opening s rest : Text} {make : Text → Except MarkupFault α}
    {kind : α → Lexeme} {lexeme : Lexeme}
    (h : GlyphList.scan opening (fun contents => (make contents).map kind) s = .ok (lexeme, rest)) :
    ∃ a, lexeme = kind a := by
  rw [GlyphList.scan] at h
  split at h
  · cases h
  next contents _ _ =>
    cases hmake : make contents with
    | error fault =>
      rw [hmake] at h
      cases h
    | ok a =>
      rw [hmake] at h
      cases h
      exact ⟨a, rfl⟩

/-- How a token is read: a fill, a line break and a color spec each in one way alone. -/
def IsReadFrom (c : CodePoint) (s rest : Text) : Lexeme → Prop
  | fill x => GlyphList.fillOpening <+: c :: s ∧
      GlyphList.scanFill (c :: s) = .ok (.fill x, rest)
  | lineBreak => c = CodePoint.ofChar '|' ∧ s = rest
  | spec x => ColorSpec.begins (c :: s) = true ∧ ColorSpec.scan (c :: s) = .ok (x, rest)
  | _ => True

theorem isReadFrom_of_scan_eq_ok {c : CodePoint} {s rest : Text} {lexeme : Lexeme}
    (h : scan c s = .ok (lexeme, rest)) : lexeme.IsReadFrom c s rest := by
  revert h
  refine scan_cases (motive := fun c s scanned => scanned = .ok (lexeme, rest) →
    lexeme.IsReadFrom c s rest)
    ?separators ?inverted ?fill ?segmentBreak ?spacing ?quote ?lineBreak ?reset ?transition ?spec
    ?unrecognized c s
  case separators | inverted =>
    intro s h
    obtain ⟨x, rfl⟩ := exists_eq_of_scanList h
    trivial
  case fill =>
    intro s h
    obtain ⟨x, rfl⟩ := exists_eq_of_scanList h
    exact ⟨⟨s, rfl⟩, h⟩
  case lineBreak =>
    intro s h
    cases h
    exact ⟨rfl, rfl⟩
  case segmentBreak | reset =>
    intro s h
    cases h
    trivial
  case spacing =>
    intro c s _ h
    cases h
    trivial
  case unrecognized =>
    intro c s _ h
    cases h
  case quote =>
    intro s h
    rw [scanLiteral] at h
    split at h
    · cases h
    · cases h
      trivial
  case transition =>
    intro t s h
    rw [scanTransition] at h
    split at h
    · split at h
      · cases h
      · cases h
        trivial
    · cases h
      trivial
  case spec =>
    intro c s hbegins h
    rw [scanSpec] at h
    split at h
    · cases h
    next hscan =>
      cases h
      exact ⟨hbegins, hscan⟩

end Lexeme

end ShellPrompt
