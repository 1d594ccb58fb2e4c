import ShellPrompt.Proofs.Markup.Appending
/-!
Markup is a row of tokens with line ends between them. Main statements: the tokens tile the markup
and each is read alone as it is read in its place (`tiles_ofMarkup`); a newline after markup
without fault parts it from what follows, so that both are lexed as they are alone
(`ofMarkup_append_newline`).
-/

set_option autoImplicit false

namespace ShellPrompt

/-- The places of the markup that the raw text of a token takes. -/
def Token.Covers (token : Token) (place : Nat) : Prop :=
  token.start ≤ place ∧ place < token.stop

/-- A text that consists of carriage returns and line feeds. -/
def Text.IsLineEnds (t : Text) : Prop :=
  ∀ c ∈ t, c = CodePoint.ofChar '\r' ∨ c = CodePoint.ofChar '\n'

theorem Text.IsLineEnds.cons {c : CodePoint} {t : Text} (hc : c.isLineEnd = true)
    (h : t.IsLineEnds) : Text.IsLineEnds (c :: t) :=
  List.forall_mem_cons.mpr ⟨CodePoint.isLineEnd_iff.mp hc, h⟩

namespace Lexing

/--
The tokens of markup tile it: each has a stretch of its own, in order, and between the stretches
there are line ends. Where no fault ends the tokens, this goes for all of the markup.
-/
structure Tiles (markup : Text) (lexing : Lexing) : Prop where
  count : lexing.tokens.length ≤ markup.length
  span : ∀ token ∈ lexing.tokens, token.start < token.stop ∧ token.stop ≤ markup.length ∧
    token.raw = (markup.take token.stop).drop token.start
  ordered : lexing.tokens.Pairwise fun first second => first.stop ≤ second.start
  /-- Before a token, and without a fault anywhere, what no token covers is a line end. -/
  skipped : ∀ place c, markup[place]? = some c →
    (lexing.error = none ∨ ∃ token ∈ lexing.tokens, place < token.start) →
    (∀ token ∈ lexing.tokens, ¬ token.Covers place) →
      c = CodePoint.ofChar '\r' ∨ c = CodePoint.ofChar '\n'
  /-- With line ends put before each, the raw texts spell the markup up to what comes after them. -/
  spelled : ∃ (gaps : List Text) (rest : Text), gaps.length = lexing.tokens.length ∧
    (∀ gap ∈ gaps, gap.IsLineEnds) ∧ (lexing.error = none → rest.IsLineEnds) ∧
    markup = (List.zipWith (fun gap token => gap ++ token.raw) gaps lexing.tokens).flatten ++ rest

theorem exists_append_of_mem_ofRest {markup s : Text} {position : Nat} {token : Token}
    (h : token ∈ (ofRest markup position s).tokens) :
    ∃ front rest, s = front ++ (token.raw ++ rest) ∧ token.start = position + front.length ∧
      token.raw ≠ [] := by
  induction s using tokenwise generalizing position with
  | nil =>
    rw [ofRest] at h
    cases h
  | lineEnd c s hc ih =>
    rw [ofRest_of_isLineEnd hc] at h
    obtain ⟨front, rest, rfl, hstart, hraw⟩ := ih h
    exact ⟨c :: front, rest, rfl, by rw [hstart, List.length_cons]; omega, hraw⟩
  | fault c s e hc hscan =>
    rw [ofRest_of_scan_eq_error hc hscan] at h
    cases h
  | token c raw rest lexeme hc hend hlocal ih =>
    rw [ofRest_of_scan_eq_ok hc (hlocal rest hend)] at h
    rcases List.mem_cons.mp h with rfl | h
    · exact ⟨[], rest, rfl, rfl, List.cons_ne_nil c raw⟩
    · obtain ⟨front, rest, rfl, hstart, hraw⟩ := ih h
      refine ⟨c :: raw ++ front, rest, (List.append_assoc _ _ _).symm, ?_, hraw⟩
      rw [hstart, List.length_append, Nat.add_assoc]

theorem length_tokens_ofRest_le (markup s : Text) (position : Nat) :
    (ofRest markup position s).tokens.length ≤ s.length := by
  induction s using tokenwise generalizing position with
  | nil =>
    rw [ofRest]
    exact Nat.le_refl 0
  | lineEnd c s hc ih =>
    rw [ofRest_of_isLineEnd hc]
    exact Nat.le_succ_of_le (ih (position + 1))
  | fault c s e hc hscan =>
    rw [ofRest_of_scan_eq_error hc hscan]
    exact Nat.zero_le _
  | token c raw rest lexeme hc hend hlocal ih =>
    rw [ofRest_of_scan_eq_ok hc (hlocal rest hend)]
    refine Nat.le_trans (Nat.succ_le_succ (ih (position + (c :: raw).length))) ?_
    simp only [List.length_append, List.length_cons]
    omega

theorem pairwise_ofRest (markup s : Text) (position : Nat) :
    (ofRest markup position s).tokens.Pairwise fun first second => first.stop ≤ second.start := by
  induction s using tokenwise generalizing position with
  | nil =>
    rw [ofRest]
    exact .nil
  | lineEnd c s hc ih =>
    rw [ofRest_of_isLineEnd hc]
    exact ih (position + 1)
  | fault c s e hc hscan =>
    rw [ofRest_of_scan_eq_error hc hscan]
    exact .nil
  | token c raw rest lexeme hc hend hlocal ih =>
    rw [ofRest_of_scan_eq_ok hc (hlocal rest hend)]
    refine .cons ?_ (ih _)
    intro later hlater
    obtain ⟨front, _, _, hstart, _⟩ := exists_append_of_mem_ofRest hlater
    rw [hstart]
    exact Nat.le_add_right _ _

theorem isLineEnd_of_not_covers (markup : Text) {s : Text} (position : Nat) {place : Nat}
    {c : CodePoint} (hplace : s[place]? = some c)
    (hbefore : (ofRest markup position s).error = none ∨
      ∃ token ∈ (ofRest markup position s).tokens, position + place < token.start)
    (hcovers : ∀ token ∈ (ofRest markup position s).tokens, ¬ token.Covers (position + place)) :
    c.isLineEnd = true := by
  induction s using tokenwise generalizing position place with
  | nil => cases hplace
  | lineEnd d s hd ih =>
    rw [ofRest_of_isLineEnd hd] at hbefore hcovers
    cases place with
    | zero =>
      cases hplace
      exact hd
    | succ place =>
      have hnext : position + (place + 1) = position + 1 + place := by omega
      rw [hnext] at hbefore hcovers
      exact ih _ hplace hbefore hcovers
  | fault d s e hd hscan =>
    rw [ofRest_of_scan_eq_error hd hscan] at hbefore
    rcases hbefore with herror | ⟨token, htoken, _⟩
    · cases herror
    · cases htoken
  | token d raw rest lexeme hd hend hlocal ih =>
    rw [ofRest_of_scan_eq_ok hd (hlocal rest hend)] at hbefore hcovers
    obtain ⟨hfirst, hlater⟩ := List.forall_mem_cons.mp hcovers
    have hpast : (d :: raw).length ≤ place := by
      by_contra hinside
      exact hfirst ⟨Nat.le_add_right _ _, by simp only [Token.stop]; omega⟩
    obtain ⟨distance, rfl⟩ := Nat.exists_eq_add_of_le hpast
    rw [List.getElem?_append_right (Nat.le_add_right _ _), Nat.add_sub_cancel_left] at hplace
    rw [← Nat.add_assoc] at hbefore hlater
    refine ih _ hplace ?_ hlater
    rcases hbefore with herror | ⟨token, htoken, hstart⟩
    · exact Or.inl herror
    · rcases List.mem_cons.mp htoken with rfl | htoken
      · exact absurd hstart (by simp only; omega)
      · exact Or.inr ⟨token, htoken, hstart⟩

theorem exists_spelled_ofRest (markup s : Text) (position : Nat) :
    ∃ (gaps : List Text) (rest : Text),
      gaps.length = (ofRest markup position s).tokens.length ∧
      (∀ gap ∈ gaps, gap.IsLineEnds) ∧
      ((ofRest markup position s).error = none → rest.IsLineEnds) ∧
      s = (List.zipWith (fun gap token => gap ++ token.raw) gaps
        (ofRest markup position s).tokens).flatten ++ rest := by
  induction s using tokenwise generalizing position with
  | nil =>
    rw [ofRest]
    exact ⟨[], [], rfl, by simp, fun _ => by simp [Text.IsLineEnds], rfl⟩
  | lineEnd c s hc ih =>
    rw [ofRest_of_isLineEnd hc]
    obtain ⟨gaps, rest, hlength, hgaps, hrest, hs⟩ := ih (position + 1)
    -- The line end belongs to the first gap; without a token, to what comes after them.
    cases htokens : (ofRest markup (position + 1) s).tokens with
    | nil =>
      rw [htokens] at hlength hs
      obtain rfl := List.length_eq_zero_iff.mp hlength
      exact ⟨[], c :: rest, rfl, hgaps, fun h => (hrest h).cons hc, congrArg (c :: ·) hs⟩
    | cons token tokens =>
      rw [htokens] at hlength hs
      obtain ⟨gap, others, rfl⟩ := List.exists_cons_of_length_eq_add_one hlength
      obtain ⟨hgap, hothers⟩ := List.forall_mem_cons.mp hgaps
      exact ⟨(c :: gap) :: others, rest, hlength,
        List.forall_mem_cons.mpr ⟨hgap.cons hc, hothers⟩, hrest, congrArg (c :: ·) hs⟩
  | fault c s e hc hscan =>
    rw [ofRest_of_scan_eq_error hc hscan]
    refine ⟨[], c :: s, rfl, by simp, fun h => ?_, rfl⟩
    cases h
  | token c raw rest lexeme hc hend hlocal ih =>
    rw [ofRest_of_scan_eq_ok hc (hlocal rest hend)]
    obtain ⟨gaps, after, hlength, hgaps, hafter, hs⟩ := ih (position + (c :: raw).length)
    refine ⟨[] :: gaps, after, congrArg (· + 1) hlength,
      List.forall_mem_cons.mpr ⟨by simp [Text.IsLineEnds], hgaps⟩, hafter, ?_⟩
    refine (congrArg (c :: raw ++ ·) hs).trans ?_
    simp [prepend]

/--
The tokens of any markup, up to its first fault, tile it, with line ends alone between them; and
the raw text of each is read alone as the same token.
-/
theorem tiles_ofMarkup (markup : Text) :
    Tiles markup (ofMarkup markup) ∧ ∀ token ∈ (ofMarkup markup).tokens,
      ofMarkup token.raw = ⟨[{ token with start := 0 }], none⟩ := by
  refine ⟨⟨length_tokens_ofRest_le markup markup 0, ?span, pairwise_ofRest markup markup 0,
    ?skipped, exists_spelled_ofRest markup markup 0⟩, ?alone⟩
  case span =>
    intro token htoken
    obtain ⟨front, rest, hmarkup, hstart, hraw⟩ := exists_append_of_mem_ofRest htoken
    rw [Nat.zero_add] at hstart
    have hlength := congrArg List.length hmarkup
    have hpositive := List.length_pos_iff.mpr hraw
    simp only [List.length_append] at hlength
    have htake : markup.take token.stop = front ++ token.raw := by
      rw [hmarkup, ← List.append_assoc]
      exact List.take_left' (by rw [List.length_append, Token.stop, hstart])
    have hdrop : (front ++ token.raw).drop token.start = token.raw := List.drop_left' hstart.symm
    refine ⟨?_, ?_, by rw [htake, hdrop]⟩
    · rw [Token.stop]
      omega
    · rw [Token.stop, hstart]
      omega
  case skipped =>
    intro place c hplace hbefore hcovers
    rw [← Nat.zero_add place] at hbefore hcovers
    exact CodePoint.isLineEnd_iff.mp (isLineEnd_of_not_covers markup 0 hplace hbefore hcovers)
  case alone =>
    intro token htoken
    have halone := ofRest_append_raw htoken (Lexeme.endsAt_nil token.lexeme) token.raw 0
    rw [List.append_nil, ofRest] at halone
    exact halone

/-- A region before a fault: what its transition says does not depend on the text it colors. -/
theorem tiles_ofMarkup_region :
    let markup : Text := "\r\x7b:#0000ff/\n\"a\"*?"
    let region : Token := ⟨1, "\x7b:#0000ff/",
      .transition .push (some ⟨none, some (.rgb ⟨0, 0, 255⟩), false, true⟩)⟩
    Tiles markup (ofMarkup markup) ∧
      (ofMarkup markup).error = some ⟨markup, 16, .unrecognized '?'⟩ ∧
      region ∈ (ofMarkup markup).tokens ∧
      ofMarkup region.raw = ⟨[{ region with start := 0 }], none⟩ := by
  intro markup region
  have hregion : region ∈ (ofMarkup markup).tokens := by decide +kernel
  obtain ⟨htiles, halone⟩ := tiles_ofMarkup markup
  exact ⟨htiles, by decide +kernel, hregion, halone region hregion⟩

/--
A newline after markup without fault only parts it from what follows. Both have the tokens that
they have alone, and what follows has its fault; both are so much further on as there is text
before them.
-/
theorem ofMarkup_append_newline {markup : Text} (h : (ofMarkup markup).error = none)
    (after : Text) :
    let whole := markup ++ CodePoint.ofChar '\n' :: after
    (ofMarkup whole).tokens = (ofMarkup markup).tokens ++ (ofMarkup after).tokens.map
        (fun token => { token with start := token.start + (markup.length + 1) }) ∧
      (ofMarkup whole).error = (ofMarkup after).error.map
        (fun error => ⟨whole, error.position + (markup.length + 1), error.fault⟩) := by
  intro whole
  have hends : (CodePoint.ofChar '\n').EndsTokens := ⟨rfl, rfl⟩
  have hmoved := ofRest_moved after whole 0 (markup.length + 1) after
  have hwhole : ofMarkup whole =
      prepend (ofMarkup markup).tokens ((ofMarkup after).moved whole (markup.length + 1)) := by
    rw [ofMarkup, ofRest_append_cons h hends, ofRest_of_isLineEnd rfl, Nat.add_assoc, hmoved]
    rfl
  rw [hwhole]
  exact ⟨rfl, rfl⟩

/-- Without the newline the first two letters would be one color spec. -/
theorem ofMarkup_append_newline_letters :
    let whole : Text := "r" ++ CodePoint.ofChar '\n' :: ("b*:x" : Text)
    (ofMarkup "r").error = none ∧
      (ofMarkup whole).tokens = (ofMarkup "r").tokens ++ (ofMarkup "b*:x").tokens.map
        (fun token => { token with start := token.start + 2 }) ∧
      (ofMarkup whole).error = some ⟨whole, 5, .unknownColor (some 'x')⟩ := by
  intro whole
  have hlexed : (ofMarkup "r").error = none := by decide +kernel
  obtain ⟨htokens, herror⟩ := ofMarkup_append_newline hlexed "b*:x"
  exact ⟨hlexed, htokens, herror.trans (by decide +kernel)⟩

end Lexing

end ShellPrompt
