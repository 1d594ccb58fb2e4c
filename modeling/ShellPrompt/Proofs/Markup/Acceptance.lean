import ShellPrompt.Proofs.Markup.Tokens
/-!
The lexer accepts exactly the markup of the grammar. It takes the longest token at each place; that
is never too long, since markup stays markup when spaces or attributes at its front are taken off.
-/

set_option autoImplicit false

namespace ShellPrompt

namespace Grammar

theorem isHead_not_special {c : CodePoint} (h : ColorSpec.isHead c = true) :
    c.isLineEnd = false ∧ c.isSpacing = false := by
  have hbegins := ColorSpec.begins_of_isHead h []
  constructor
  · rw [Bool.eq_false_iff, Ne, CodePoint.isLineEnd_iff, not_or]
    exact ⟨ColorSpec.ne_of_begins hbegins rfl, ColorSpec.ne_of_begins hbegins rfl⟩
  · rw [Bool.eq_false_iff, Ne, CodePoint.isSpacing_iff, not_or]
    exact ⟨ColorSpec.ne_of_begins hbegins rfl, ColorSpec.ne_of_begins hbegins rfl⟩

theorem exists_symbol_of_mem {c : CodePoint}
    (h : c ∈ (['\x7b', '\x7d', '<', '>'] : Text)) : ∃ t : Transition, c = t.symbol := by
  simp only [List.mem_cons, List.not_mem_nil, or_false] at h
  rcases h with rfl | rfl | rfl | rfl
  · exact ⟨.push, rfl⟩
  · exact ⟨.pop, rfl⟩
  · exact ⟨.opening, rfl⟩
  · exact ⟨.closing, rfl⟩

theorem IsToken.exists_head {token : Text} (h : IsToken token) :
    ∃ c raw, token = c :: raw ∧ c.isLineEnd = false ∧
      (c.isSpacing = true → ∀ d ∈ token, d.isSpacing = true) := by
  cases h with
  | separators | inverted | fill | segmentBreak | lineBreak | reset | literal =>
    refine ⟨_, _, rfl, rfl, fun hspacing => ?_⟩
    cases hspacing
  | whitespace hne hall =>
    obtain ⟨c, raw, rfl⟩ := List.exists_cons_of_ne_nil hne
    refine ⟨c, raw, rfl, ?_, fun _ d hd => CodePoint.isSpacing_iff.mpr (hall d hd)⟩
    rcases hall c List.mem_cons_self with rfl | rfl <;> rfl
  | transition hc =>
    obtain ⟨t, rfl⟩ := exists_symbol_of_mem hc
    refine ⟨t.symbol, [], rfl, ?_, fun hspacing => ?_⟩
    · cases t <;> rfl
    · cases t <;> cases hspacing
  | transitionSpec hc _ =>
    obtain ⟨t, rfl⟩ := exists_symbol_of_mem hc
    refine ⟨t.symbol, _, rfl, ?_, fun hspacing => ?_⟩
    · cases t <;> rfl
    · cases t <;> cases hspacing
  | spec hspec =>
    obtain ⟨c, raw, rfl, hhead⟩ := ColorSpec.exists_head_of_isSpec hspec
    obtain ⟨hlineEnd, hspacing⟩ := isHead_not_special hhead
    refine ⟨c, raw, rfl, hlineEnd, fun h => ?_⟩
    rw [hspacing] at h
    cases h

theorem IsToken.isSpec_of_begins {token rest : Text} (h : IsToken token)
    (hbegins : ColorSpec.begins (token ++ rest) = true) : IsSpec token := by
  cases h with
  | separators | inverted | fill | segmentBreak | lineBreak | reset | literal => cases hbegins
  | whitespace hne hall =>
    obtain ⟨c, raw, rfl⟩ := List.exists_cons_of_ne_nil hne
    rcases hall c List.mem_cons_self with rfl | rfl <;> cases hbegins
  | transition hc =>
    obtain ⟨t, rfl⟩ := exists_symbol_of_mem hc
    cases t <;> cases hbegins
  | transitionSpec hc _ =>
    obtain ⟨t, rfl⟩ := exists_symbol_of_mem hc
    cases t <;> cases hbegins
  | spec hspec => exact hspec

theorem IsMarkup.dropWhile_isSpacing {s : Text} (h : IsMarkup s) :
    IsMarkup (s.dropWhile CodePoint.isSpacing) := by
  induction h with
  | nil => exact .nil
  | @lineEnd c rest hc h _ =>
    have hspacing : ¬ c.isSpacing = true := by rcases hc with rfl | rfl <;> decide
    rw [List.dropWhile_cons_of_neg hspacing]
    exact .lineEnd hc h
  | @token token rest htoken h ih =>
    obtain ⟨c, raw, rfl, _, hall⟩ := htoken.exists_head
    by_cases hspacing : c.isSpacing = true
    · rw [List.dropWhile_append_of_pos (hall hspacing)]
      exact ih
    · rw [List.cons_append, List.dropWhile_cons_of_neg hspacing]
      exact .token htoken h

theorem IsMarkup.exists_attribute {s : Text} (h : IsMarkup s)
    (hbegins : ColorSpec.begins s = true) :
    ∃ first rest, s = first ++ rest ∧ IsAttribute first ∧ IsMarkup rest := by
  cases h with
  | nil => cases hbegins
  | lineEnd hc => rcases hc with rfl | rfl <;> cases hbegins
  | @token token rest htoken h =>
    cases htoken.isSpec_of_begins hbegins with
    | single hfirst => exact ⟨token, rest, rfl, hfirst, h⟩
    | @more first others hfirst hothers =>
      exact ⟨first, others ++ rest, List.append_assoc first others rest, hfirst,
        .token (.spec hothers) h⟩

theorem IsMarkup.exists_scanAfter {s : Text} (h : IsMarkup s) (before : Spec) :
    ∃ spec rest, ColorSpec.scanAfter before s = .ok (spec, rest) ∧ IsMarkup rest := by
  fun_induction ColorSpec.scanAfter before s with
  | case1 before s hbegins e hattribute =>
    obtain ⟨first, rest, rfl, hfirst, _⟩ := h.exists_attribute hbegins
    obtain ⟨next, hnext⟩ := ColorSpec.exists_scanAttribute_eq_ok hfirst
    rw [hnext rest] at hattribute
    cases hattribute
  | case2 before s hbegins next after hattribute ih =>
    obtain ⟨first, rest, rfl, hfirst, hrest⟩ := h.exists_attribute hbegins
    obtain ⟨found, hfound⟩ := ColorSpec.exists_scanAttribute_eq_ok hfirst
    rw [hfound rest] at hattribute
    cases hattribute
    exact ih hrest
  | case3 before s _ => exact ⟨before, s, rfl, h⟩

theorem IsMarkup.exists_scanTransition {s : Text} (h : IsMarkup s) (t : Transition) :
    ∃ lexeme rest, Lexeme.scanTransition t s = .ok (lexeme, rest) ∧ IsMarkup rest := by
  rw [Lexeme.scanTransition]
  by_cases hbegins : ColorSpec.begins s = true
  · obtain ⟨spec, rest, hscan, hrest⟩ := h.exists_scanAfter Spec.empty
    rw [if_pos hbegins, ColorSpec.scan, hscan]
    exact ⟨_, rest, rfl, hrest⟩
  · rw [if_neg hbegins]
    exact ⟨_, s, rfl, h⟩

/-- At the front of markup a token is read, and it leaves markup. -/
theorem IsMarkup.exists_scan {c : CodePoint} {s : Text} (h : IsMarkup (c :: s))
    (hc : c.isLineEnd = false) :
    ∃ lexeme rest, Lexeme.scan c s = .ok (lexeme, rest) ∧ IsMarkup rest := by
  generalize hmarkup : c :: s = markup at h
  cases h with
  | nil => cases hmarkup
  | lineEnd hlineEnd =>
    cases hmarkup
    rw [CodePoint.isLineEnd_iff.mpr hlineEnd] at hc
    cases hc
  | @token token rest htoken hrest =>
    cases htoken with
    | separators hcount hitems =>
      obtain ⟨separators, hscan⟩ := GlyphList.exists_scanSeparators_eq_ok false hcount hitems
      cases hmarkup
      exact ⟨_, rest, hscan rest, hrest⟩
    | inverted hcount hitems =>
      obtain ⟨separators, hscan⟩ := GlyphList.exists_scanSeparators_eq_ok true hcount hitems
      cases hmarkup
      exact ⟨_, rest, hscan rest, hrest⟩
    | fill hcount hitems =>
      obtain ⟨fill, hscan⟩ := GlyphList.exists_scanFill_eq_ok hcount hitems
      cases hmarkup
      exact ⟨_, rest, hscan rest, hrest⟩
    | segmentBreak | lineBreak | reset =>
      cases hmarkup
      exact ⟨_, rest, rfl, hrest⟩
    | whitespace hne hall =>
      have hspacing : c.isSpacing = true := by
        obtain ⟨d, raw, rfl⟩ := List.exists_cons_of_ne_nil hne
        cases hmarkup
        exact CodePoint.isSpacing_iff.mpr (hall c List.mem_cons_self)
      refine ⟨_, _, Lexeme.scan_spacing hspacing s, ?_⟩
      have hdrop := (IsMarkup.token (.whitespace hne hall) hrest).dropWhile_isSpacing
      rw [← hmarkup, List.dropWhile_cons_of_pos hspacing] at hdrop
      exact hdrop
    | @literal inside hquoted =>
      obtain ⟨text, hscan⟩ := Lexeme.exists_scanLiteral_eq_ok hquoted '"'
      have hs : c = CodePoint.ofChar '"' ∧ s = inside ++ CodePoint.ofChar '"' :: rest := by
        simpa using hmarkup
      obtain ⟨rfl, rfl⟩ := hs
      exact ⟨_, rest, hscan rest, hrest⟩
    | transition ht =>
      obtain ⟨t, rfl⟩ := exists_symbol_of_mem ht
      cases hmarkup
      rw [Lexeme.scan_transition]
      exact hrest.exists_scanTransition t
    | transitionSpec ht hspec =>
      obtain ⟨t, rfl⟩ := exists_symbol_of_mem ht
      cases hmarkup
      rw [Lexeme.scan_transition]
      exact (IsMarkup.token (.spec hspec) hrest).exists_scanTransition t
    | spec hspec =>
      have hbegins := ColorSpec.begins_of_isSpec hspec rest
      rw [← hmarkup] at hbegins
      obtain ⟨spec, after, hscan, hafter⟩ :=
        (IsMarkup.token (.spec hspec) hrest).exists_scanAfter Spec.empty
      rw [← hmarkup] at hscan
      rw [Lexeme.scan_spec hbegins, Lexeme.scanSpec, ColorSpec.scan, hscan]
      exact ⟨_, after, rfl, hafter⟩

theorem isMarkup_cons_of_isLineEnd {c : CodePoint} (hc : c.isLineEnd = true) (s : Text) :
    IsMarkup (c :: s) ↔ IsMarkup s := by
  constructor
  · intro h
    generalize hmarkup : c :: s = markup at h
    cases h with
    | nil => cases hmarkup
    | lineEnd _ h =>
      cases hmarkup
      exact h
    | token htoken _ =>
      obtain ⟨d, raw, rfl, hd, _⟩ := htoken.exists_head
      cases hmarkup
      rw [hd] at hc
      cases hc
  · intro h
    exact .lineEnd (CodePoint.isLineEnd_iff.mp hc) h

theorem isMarkup_cons_of_scan_eq_ok {c : CodePoint} {s rest : Text} {lexeme : Lexeme}
    (hc : c.isLineEnd = false) (h : Lexeme.scan c s = .ok (lexeme, rest)) :
    IsMarkup (c :: s) ↔ IsMarkup rest := by
  constructor
  · intro hmarkup
    obtain ⟨found, after, hscan, hafter⟩ := hmarkup.exists_scan hc
    cases h.symm.trans hscan
    exact hafter
  · intro hrest
    obtain ⟨raw, rfl, htoken, _⟩ := Lexeme.exists_raw_of_scan_eq_ok h
    exact .token htoken hrest

end Grammar

namespace Lexing

open Grammar

theorem error_ofRest_eq_none_iff (markup : Text) (position : Nat) (s : Text) :
    (ofRest markup position s).error = none ↔ IsMarkup s := by
  fun_induction ofRest markup position s with
  | case1 => exact ⟨fun _ => .nil, fun _ => rfl⟩
  | case2 position c s hc ih => rw [ih, isMarkup_cons_of_isLineEnd hc]
  | case3 position c s hc e hscan =>
    constructor
    · intro h
      cases h
    · intro h
      obtain ⟨lexeme, rest, hfound, _⟩ := h.exists_scan (Bool.eq_false_iff.mpr hc)
      rw [hscan] at hfound
      cases hfound
  | case4 position c s hc lexeme rest hscan raw after ih =>
    rw [isMarkup_cons_of_scan_eq_ok (Bool.eq_false_iff.mpr hc) hscan]
    exact ih

theorem bounds_of_error_ofRest {markup s : Text} {position : Nat} {error : MarkupError}
    (h : (ofRest markup position s).error = some error) :
    error.markup = markup ∧ position ≤ error.position ∧
      error.position ≤ position + s.length := by
  fun_induction ofRest markup position s with
  | case1 => cases h
  | case2 position c s hc ih =>
    obtain ⟨hmarkup, hlower, hupper⟩ := ih h
    rw [List.length_cons]
    exact ⟨hmarkup, by omega, by omega⟩
  | case3 position c s hc e hscan =>
    cases h
    exact ⟨rfl, Nat.le_add_right _ _, Nat.add_le_add_left (Nat.sub_le _ _) position⟩
  | case4 position c s hc lexeme rest hscan raw after ih =>
    obtain ⟨hmarkup, hlower, hupper⟩ := ih h
    have hlength : raw.length = (c :: s).length - rest.length := by
      rw [List.length_take]
      omega
    have hrest := Lexeme.length_lt_of_scan hscan
    exact ⟨hmarkup, by omega, by omega⟩

/--
Lexing succeeds on the markup of the grammar and on no other text. On any other text there is one
error, at a place in that text.
-/
theorem accepts_grammar (markup : Text) :
    ((ofMarkup markup).error = none ↔ IsMarkup markup) ∧
      (¬ IsMarkup markup ↔ ∃! error, (ofMarkup markup).error = some error ∧
        error.markup = markup ∧ error.position ≤ markup.length) := by
  have hnone := error_ofRest_eq_none_iff markup 0 markup
  refine ⟨hnone, ?_⟩
  constructor
  · intro hmarkup
    obtain ⟨error, herror⟩ := Option.ne_none_iff_exists'.mp (mt hnone.mp hmarkup)
    obtain ⟨hsame, _, hupper⟩ := bounds_of_error_ofRest herror
    rw [Nat.zero_add] at hupper
    refine ⟨error, ⟨herror, hsame, hupper⟩, ?_⟩
    intro other hother
    exact Option.some.inj (hother.1.symm.trans herror)
  · rintro ⟨error, ⟨herror, _⟩, _⟩ hmarkup
    rw [ofMarkup, hnone.mpr hmarkup] at herror
    cases herror

end Lexing

end ShellPrompt
