import ShellPrompt.Proofs.Markup.Tokens
/-!
Lexing markup that is put together. A token is read at its place as it is read anywhere, a character
with which no token goes on ends the token before it, and a glyph list can be read alone.
-/

set_option autoImplicit false

namespace ShellPrompt

/-- No token that could go on goes on with this character. -/
structure CodePoint.EndsTokens (c : CodePoint) : Prop where
  noSpacing : c.isSpacing = false
  noAttribute : (c.isLetter || ColorSpec.isSymbol c) = false

namespace Lexeme

def isSeparators : Lexeme → Bool
  | separators _ => true
  | _ => false

def isFill : Lexeme → Bool
  | fill _ => true
  | _ => false

theorem endsAt_nil (lexeme : Lexeme) : lexeme.EndsAt [] := by
  cases lexeme <;> trivial

theorem EndsAt.append_cons {lexeme : Lexeme} {rest : Text} (h : lexeme.EndsAt rest)
    {c : CodePoint} (hc : c.EndsTokens) (after : Text) :
    lexeme.EndsAt (rest ++ c :: after) := by
  cases rest with
  | nil =>
    have hbegins : ColorSpec.begins (c :: after) = false := by
      rw [ColorSpec.begins_cons, hc.noAttribute, Bool.false_and]
    cases lexeme with
    | separators | fill | segmentBreak | literal | lineBreak | reset => trivial
    | transition => exact hbegins
    | spec => exact hbegins
    | whitespace => exact List.dropWhile_cons_of_neg (by simp [hc.noSpacing])
  | cons d rest =>
    cases lexeme with
    | separators | fill | segmentBreak | literal | lineBreak | reset => trivial
    | transition => exact ColorSpec.not_begins_append h _
    | spec => exact ColorSpec.not_begins_append h _
    | whitespace =>
      have hd : ¬ d.isSpacing = true := List.dropWhile_eq_self_iff.mp h (by simp)
      exact List.dropWhile_cons_of_neg hd

end Lexeme

def Token.moved (distance : Nat) (token : Token) : Token :=
  { token with start := token.start + distance }

def MarkupError.moved (markup : Text) (distance : Nat) (error : MarkupError) : MarkupError :=
  ⟨markup, error.position + distance, error.fault⟩

namespace Lexing

def moved (markup : Text) (distance : Nat) (lexing : Lexing) : Lexing :=
  ⟨lexing.tokens.map (Token.moved distance), lexing.error.map (MarkupError.moved markup distance)⟩

def prepend (tokens : List Token) (lexing : Lexing) : Lexing :=
  ⟨tokens ++ lexing.tokens, lexing.error⟩

theorem ofRest_of_isLineEnd {c : CodePoint} (hc : c.isLineEnd = true) (markup : Text)
    (position : Nat) (s : Text) :
    ofRest markup position (c :: s) = ofRest markup (position + 1) s := by
  rw [ofRest, if_pos hc]

theorem ofRest_of_scan_eq_ok {c : CodePoint} {raw rest : Text} {lexeme : Lexeme}
    (hc : c.isLineEnd = false) (h : Lexeme.scan c (raw ++ rest) = .ok (lexeme, rest))
    (markup : Text) (position : Nat) :
    ofRest markup position (c :: raw ++ rest) =
      prepend [⟨position, c :: raw, lexeme⟩]
        (ofRest markup (position + (c :: raw).length) rest) := by
  have hraw : (c :: (raw ++ rest)).take ((c :: (raw ++ rest)).length - rest.length) = c :: raw := by
    have hlength : (c :: (raw ++ rest)).length - rest.length = (c :: raw).length := by
      simp only [List.length_cons, List.length_append]
      omega
    rw [hlength, ← List.cons_append]
    exact List.take_left
  rw [List.cons_append, ofRest, if_neg (by simp [hc])]
  split
  next hscan =>
    rw [h] at hscan
    cases hscan
  next hscan =>
    rw [h] at hscan
    cases hscan
    simp only [hraw]
    rfl

theorem ofRest_of_scan_eq_error {c : CodePoint} {s : Text} {e : ScanError}
    (hc : c.isLineEnd = false) (h : Lexeme.scan c s = .error e) (markup : Text) (position : Nat) :
    ofRest markup position (c :: s) =
      ⟨[], some ⟨markup, position + ((c :: s).length - e.rest.length), e.fault⟩⟩ := by
  rw [ofRest, if_neg (by simp [hc])]
  split
  next hscan =>
    rw [h] at hscan
    cases hscan
    rfl
  next hscan =>
    rw [h] at hscan
    cases hscan

theorem ofMarkup_of_scan_eq_ok {c : CodePoint} {raw : Text} {lexeme : Lexeme}
    (hc : c.isLineEnd = false) (h : Lexeme.scan c raw = .ok (lexeme, [])) :
    ofMarkup (c :: raw) = ⟨[⟨0, c :: raw, lexeme⟩], none⟩ := by
  rw [← List.append_nil raw] at h
  have hread := ofRest_of_scan_eq_ok hc h (c :: raw) 0
  rw [List.append_nil, ofRest] at hread
  exact hread

/-- Induction along the tokens of markup. -/
theorem tokenwise {motive : Text → Prop} (nil : motive [])
    (lineEnd : ∀ c s, c.isLineEnd = true → motive s → motive (c :: s))
    (fault : ∀ c s e, c.isLineEnd = false → Lexeme.scan c s = .error e → motive (c :: s))
    (token : ∀ c raw rest lexeme, c.isLineEnd = false → Lexeme.EndsAt lexeme rest →
      (∀ after, lexeme.EndsAt after → Lexeme.scan c (raw ++ after) = .ok (lexeme, after)) →
      motive rest → motive (c :: raw ++ rest)) (s : Text) : motive s := by
  fun_induction ofRest [] 0 s with
  | case1 => exact nil
  | case2 position c s hc ih => exact lineEnd c s hc ih
  | case3 position c s hc e hscan => exact fault c s e (Bool.eq_false_iff.mpr hc) hscan
  | case4 position c s hc lexeme rest hscan raw after ih =>
    obtain ⟨front, rfl, _, hend, hlocal⟩ := Lexeme.exists_raw_of_scan_eq_ok hscan
    exact token c front rest lexeme (Bool.eq_false_iff.mpr hc) hend hlocal ih

theorem exists_scan_of_mem_ofRest {markup s : Text} {position : Nat} {token : Token}
    (h : token ∈ (ofRest markup position s).tokens) :
    ∃ c raw, token.raw = c :: raw ∧ c.isLineEnd = false ∧
      Lexeme.scan c raw = .ok (token.lexeme, []) := by
  induction s using tokenwise generalizing position with
  | nil =>
    rw [ofRest] at h
    cases h
  | lineEnd c s hc ih =>
    rw [ofRest_of_isLineEnd hc] at h
    exact ih h
  | fault c s e hc hscan =>
    rw [ofRest_of_scan_eq_error hc hscan] at h
    cases h
  | token c raw rest lexeme hc hend hlocal ih =>
    rw [ofRest_of_scan_eq_ok hc (hlocal rest hend)] at h
    rcases List.mem_cons.mp h with rfl | h
    · have hscan := hlocal [] lexeme.endsAt_nil
      rw [List.append_nil] at hscan
      exact ⟨c, raw, rfl, hc, hscan⟩
    · exact ih h

theorem moved_prepend (other : Text) (distance : Nat) (tokens : List Token) (lexing : Lexing) :
    (prepend tokens lexing).moved other distance =
      prepend (tokens.map (Token.moved distance)) (lexing.moved other distance) := by
  simp [moved, prepend]

theorem ofRest_moved (markup other : Text) (position distance : Nat) (s : Text) :
    ofRest other (position + distance) s = (ofRest markup position s).moved other distance := by
  induction s using tokenwise generalizing position with
  | nil =>
    rw [ofRest, ofRest]
    rfl
  | lineEnd c s hc ih =>
    rw [ofRest_of_isLineEnd hc, ofRest_of_isLineEnd hc, ← ih, Nat.add_right_comm]
  | fault c s e hc hscan =>
    rw [ofRest_of_scan_eq_error hc hscan, ofRest_of_scan_eq_error hc hscan]
    simp only [moved, MarkupError.moved, List.map_nil, Option.map_some, Nat.add_right_comm]
  | token c raw rest lexeme hc hend hlocal ih =>
    rw [ofRest_of_scan_eq_ok hc (hlocal rest hend), ofRest_of_scan_eq_ok hc (hlocal rest hend),
      moved_prepend, ← ih, Nat.add_right_comm]
    rfl

theorem ofRest_append_cons {markup s : Text} {position : Nat}
    (h : (ofRest markup position s).error = none) {c : CodePoint} (hc : c.EndsTokens)
    (other after : Text) :
    ofRest other position (s ++ c :: after) =
      prepend (ofRest markup position s).tokens
        (ofRest other (position + s.length) (c :: after)) := by
  induction s using tokenwise generalizing position with
  | nil =>
    have hnil : ofRest markup position [] = ⟨[], none⟩ := by rw [ofRest]
    rw [hnil]
    rfl
  | lineEnd d s hd ih =>
    rw [ofRest_of_isLineEnd hd] at h ⊢
    rw [List.cons_append, ofRest_of_isLineEnd hd, ih h, List.length_cons, Nat.add_right_comm,
      Nat.add_assoc position]
  | fault d s e hd hscan =>
    rw [ofRest_of_scan_eq_error hd hscan] at h
    cases h
  | token d raw rest lexeme hd hend hlocal ih =>
    rw [ofRest_of_scan_eq_ok hd (hlocal rest hend)] at h ⊢
    rw [List.append_assoc, ofRest_of_scan_eq_ok hd (hlocal _ (hend.append_cons hc after)), ih h,
      List.length_append, ← Nat.add_assoc]
    rfl

theorem ofMarkup_append_lineBreak {markup : Text} (h : (ofMarkup markup).error = none)
    (after : Text) :
    ofMarkup (markup ++ CodePoint.ofChar '|' :: after) =
      prepend ((ofMarkup markup).tokens ++
          [⟨markup.length, [CodePoint.ofChar '|'], .lineBreak⟩])
        ((ofMarkup after).moved (markup ++ CodePoint.ofChar '|' :: after) (markup.length + 1)) := by
  have hends : (CodePoint.ofChar '|').EndsTokens := ⟨rfl, rfl⟩
  have hscan : Lexeme.scan '|' ([] ++ after) = .ok (.lineBreak, after) := rfl
  have hbreak := ofRest_of_scan_eq_ok (c := '|') rfl hscan
    (markup ++ CodePoint.ofChar '|' :: after) markup.length
  have hmoved := ofRest_moved after (markup ++ CodePoint.ofChar '|' :: after) 0
    (markup.length + 1) after
  rw [Nat.zero_add] at hmoved
  rw [ofMarkup, ofRest_append_cons h hends, Nat.zero_add]
  refine (congrArg (prepend (ofMarkup markup).tokens) hbreak).trans ?_
  rw [List.length_singleton, hmoved, prepend, prepend, prepend, List.append_assoc]
  rfl

/-- A token is read from its raw text at any place, whatever follows where it may end. -/
theorem ofRest_append_raw {markup s : Text} {position : Nat} {token : Token}
    (h : token ∈ (ofRest markup position s).tokens) {after : Text}
    (hafter : token.lexeme.EndsAt after) (other : Text) (start : Nat) :
    ofRest other start (token.raw ++ after) =
      prepend [{ token with start := start }] (ofRest other (start + token.raw.length) after) := by
  induction s using tokenwise generalizing position with
  | nil =>
    rw [ofRest] at h
    cases h
  | lineEnd c s hc ih =>
    rw [ofRest_of_isLineEnd hc] at h
    exact ih h
  | fault c s e hc hscan =>
    rw [ofRest_of_scan_eq_error hc hscan] at h
    cases h
  | token c raw rest lexeme hc hend hlocal ih =>
    rw [ofRest_of_scan_eq_ok hc (hlocal rest hend)] at h
    rcases List.mem_cons.mp h with rfl | h
    · exact ofRest_of_scan_eq_ok hc (hlocal after hafter) other start
    · exact ih h

def last? (kind : Lexeme → Bool) (lexing : Lexing) : Option Token :=
  lexing.tokens.reverse.find? fun token => kind token.lexeme

def lastRaw (kind : Lexeme → Bool) (lexing : Lexing) : Text :=
  (lexing.last? kind).elim [] Token.raw

/-- The raw texts of the last separators and of the last fill. -/
def carried (lexing : Lexing) : Text :=
  lexing.lastRaw Lexeme.isSeparators ++ lexing.lastRaw Lexeme.isFill

def carriedLexemes (lexing : Lexing) : List Lexeme :=
  ((lexing.last? Lexeme.isSeparators).toList ++ (lexing.last? Lexeme.isFill).toList).map
    Token.lexeme

theorem exists_prepend_of_lastRaw {kind : Lexeme → Bool}
    (hkind : ∀ lexeme, kind lexeme = true → ∀ after, lexeme.EndsAt after)
    (markup other after : Text) (start : Nat) :
    ∃ tokens : List Token,
      tokens.map Token.lexeme = ((ofMarkup markup).last? kind).toList.map Token.lexeme ∧
      ofRest other start ((ofMarkup markup).lastRaw kind ++ after) =
        prepend tokens (ofRest other (start + ((ofMarkup markup).lastRaw kind).length) after) := by
  rw [lastRaw]
  cases hlast : (ofMarkup markup).last? kind with
  | none => exact ⟨[], rfl, rfl⟩
  | some token =>
    rw [last?] at hlast
    have hmem := List.mem_reverse.mp (List.mem_of_find?_eq_some hlast)
    have hfound : kind token.lexeme = true := by simpa using List.find?_some hlast
    exact ⟨[{ token with start := start }], rfl,
      ofRest_append_raw hmem (hkind token.lexeme hfound after) other start⟩

theorem exists_prepend_of_carried (markup after : Text) :
    let carried := (ofMarkup markup).carried
    ∃ tokens : List Token, tokens.map Token.lexeme = (ofMarkup markup).carriedLexemes ∧
      ofMarkup (carried ++ after) =
        prepend tokens ((ofMarkup after).moved (carried ++ after) carried.length) := by
  intro carried
  have hseparators : ∀ lexeme, Lexeme.isSeparators lexeme = true →
      ∀ rest, lexeme.EndsAt rest := by
    intro lexeme h rest
    cases lexeme with
    | separators => trivial
    | _ => cases h
  have hfill : ∀ lexeme, Lexeme.isFill lexeme = true → ∀ rest, lexeme.EndsAt rest := by
    intro lexeme h rest
    cases lexeme with
    | fill => trivial
    | _ => cases h
  obtain ⟨first, hfirst, hfirstRest⟩ := exists_prepend_of_lastRaw hseparators markup
    (carried ++ after) ((ofMarkup markup).lastRaw Lexeme.isFill ++ after) 0
  obtain ⟨second, hsecond, hsecondRest⟩ := exists_prepend_of_lastRaw hfill markup
    (carried ++ after) after (0 + ((ofMarkup markup).lastRaw Lexeme.isSeparators).length)
  have hlength : 0 + ((ofMarkup markup).lastRaw Lexeme.isSeparators).length +
      ((ofMarkup markup).lastRaw Lexeme.isFill).length = 0 + carried.length := by
    simp [carried, Lexing.carried]
  refine ⟨first ++ second, ?_, ?_⟩
  · rw [List.map_append, hfirst, hsecond, carriedLexemes, List.map_append]
  · calc ofMarkup (carried ++ after)
      _ = ofRest (carried ++ after) 0 ((ofMarkup markup).lastRaw Lexeme.isSeparators ++
          ((ofMarkup markup).lastRaw Lexeme.isFill ++ after)) :=
        congrArg (ofRest (carried ++ after) 0) (List.append_assoc _ _ _)
      _ = prepend first (prepend second
          (ofRest (carried ++ after) (0 + carried.length) after)) := by
        rw [hfirstRest, hsecondRest, hlength]
      _ = prepend (first ++ second) ((ofMarkup after).moved (carried ++ after) carried.length) := by
        rw [ofRest_moved after, prepend, prepend, prepend, List.append_assoc]
        rfl

end Lexing

end ShellPrompt
