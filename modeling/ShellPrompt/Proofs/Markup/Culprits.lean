import ShellPrompt.Proofs.Markup.Faults
import ShellPrompt.Proofs.Markup.Tiling
/-!
Where errors of markup point. Main statement: the position of an error comes after the tokens that
are read, some line ends and a part without fault of one more token, and the markup from there on
has the fault that the error says (`errors_point_at_culprit`).
-/

set_option autoImplicit false

namespace ShellPrompt

open MarkupFault (FoundAt)

theorem MarkupFault.FoundAt.color_isPrefix {fault : MarkupFault} {front rest color : Text}
    (h : FoundAt fault front rest) (hcolor : fault.color? = some color) :
    rest = [] ∧ color = "end of input" ∨ color ≠ [] ∧ color <+: rest := by
  cases h with
  | unrecognized | unterminatedLiteral | malformedEscape | unterminatedList | emptyGlyph
  | notACodePoint | separatorCount | emptyFill => cases hcolor
  | endOfMarkup =>
    cases hcolor
    exact Or.inl ⟨rfl, rfl⟩
  | @unknownColor front rest c =>
    cases hcolor
    exact Or.inr ⟨List.cons_ne_nil c [], rest, rfl⟩
  | malformedColor _ hdigits _ =>
    cases hcolor
    rw [hdigits]
    exact Or.inr ⟨List.cons_ne_nil _ _,
      (List.prefix_cons_inj _).mpr (List.takeWhile_prefix CodePoint.isHexDigit)⟩

namespace Lexing

/-- Where the tokens end; `position` if there are none. -/
def stop (position : Nat) (lexing : Lexing) : Nat :=
  lexing.tokens.getLast?.elim position Token.stop

theorem stop_of_tokens_eq_nil {lexing : Lexing} (h : lexing.tokens = []) (position : Nat) :
    lexing.stop position = position := by
  rw [stop, h]
  rfl

theorem stop_eq_of_tokens_ne_nil {lexing : Lexing} (h : lexing.tokens ≠ [])
    (position other : Nat) : lexing.stop position = lexing.stop other := by
  rw [stop, stop, List.getLast?_eq_some_getLast h]
  rfl

theorem stop_prepend (token : Token) (lexing : Lexing) (position : Nat) :
    (prepend [token] lexing).stop position = lexing.stop token.stop := by
  rw [stop, stop, prepend, List.singleton_append, List.getLast?_cons]
  cases lexing.tokens.getLast? <;> rfl

/-- The text that is lexed: tokens, line ends, a part without fault, and the place of the error. -/
theorem exists_front_of_error_ofRest {markup s : Text} {position : Nat} {error : MarkupError}
    (h : (ofRest markup position s).error = some error) :
    ∃ read gap front rest, s = read ++ (gap ++ (front ++ rest)) ∧
      (ofRest markup position s).stop position = position + read.length ∧ gap.IsLineEnds ∧
      error.position = position + read.length + gap.length + front.length ∧
      (∃ c after, front ++ rest = c :: after ∧ c.isLineEnd = false) ∧
      FoundAt error.fault front rest := by
  induction s using tokenwise generalizing position with
  | nil =>
    rw [ofRest] at h
    cases h
  | lineEnd c s hc ih =>
    rw [ofRest_of_isLineEnd hc] at h ⊢
    obtain ⟨read, gap, front, rest, hs, hstop, hgap, hposition, hfound⟩ := ih h
    -- The line end comes before a token that is read, or it is one of those before the error.
    by_cases htokens : (ofRest markup (position + 1) s).tokens = []
    · rw [stop_of_tokens_eq_nil htokens] at hstop ⊢
      have hread : read = [] := List.eq_nil_of_length_eq_zero (by omega)
      rw [hread] at hs hposition
      refine ⟨[], c :: gap, front, rest, congrArg (c :: ·) hs, rfl, hgap.cons hc, ?_, hfound⟩
      simp only [List.length_cons, List.length_nil] at hposition ⊢
      omega
    · rw [stop_eq_of_tokens_ne_nil htokens (position + 1) position] at hstop
      refine ⟨c :: read, gap, front, rest, congrArg (c :: ·) hs, ?_, hgap, ?_, hfound⟩
      · rw [hstop, List.length_cons, Nat.add_right_comm, Nat.add_assoc]
      · rw [hposition, List.length_cons, Nat.add_right_comm position, Nat.add_assoc position]
  | fault c s e hc hscan =>
    rw [ofRest_of_scan_eq_error hc hscan] at h ⊢
    cases h
    obtain ⟨front, hs, hfound⟩ := Lexeme.exists_front_of_scan_eq_error hscan
    refine ⟨[], [], front, e.rest, hs, rfl, by simp [Text.IsLineEnds], ?_, ⟨c, s, hs.symm, hc⟩,
      hfound⟩
    rw [hs, List.length_append, Nat.add_sub_cancel]
    rfl
  | token c raw rest lexeme hc hend hlocal ih =>
    rw [ofRest_of_scan_eq_ok hc (hlocal rest hend)] at h ⊢
    obtain ⟨read, gap, front, rest, rfl, hstop, hgap, hposition, hfound⟩ := ih h
    refine ⟨c :: raw ++ read, gap, front, rest, (List.append_assoc _ _ _).symm, ?_, hgap, ?_,
      hfound⟩
    · rw [stop_prepend, Token.stop, hstop, List.length_append, Nat.add_assoc]
    · rw [hposition, List.length_append, ← Nat.add_assoc position]

/--
An error of markup points at its culprit: after the tokens that are read there are line ends alone
before a token begins, and the position is where this token has its fault. A color that the error
names is the one at this position.
-/
theorem errors_point_at_culprit {markup : Text} {error : MarkupError}
    (h : (ofMarkup markup).error = some error) :
    error.markup = markup ∧ (ofMarkup markup).stop 0 ≤ error.position ∧
      error.position ≤ markup.length ∧
      ∃ read gap front rest, markup = read ++ gap ++ front ++ rest ∧
        read.length = (ofMarkup markup).stop 0 ∧ gap.IsLineEnds ∧
        error.position = (read ++ gap ++ front).length ∧
        (∃ c after, front ++ rest = c :: after ∧
          c ≠ CodePoint.ofChar '\r' ∧ c ≠ CodePoint.ofChar '\n') ∧
        FoundAt error.fault front rest ∧
        ∀ color, error.fault.color? = some color →
          rest = [] ∧ color = "end of input" ∨ color ≠ [] ∧ color <+: rest := by
  obtain ⟨hmarkup, -, hupper⟩ := bounds_of_error_ofRest h
  obtain ⟨read, gap, front, rest, hwhole, hstop, hgap, hposition, ⟨c, after, hhead, hc⟩, hfound⟩ :=
    exists_front_of_error_ofRest h
  rw [Nat.zero_add] at hupper hstop hposition
  have hlineEnd : c ≠ CodePoint.ofChar '\r' ∧ c ≠ CodePoint.ofChar '\n' := by
    rw [Bool.eq_false_iff, Ne, CodePoint.isLineEnd_iff, not_or] at hc
    exact hc
  have hlower : (ofMarkup markup).stop 0 ≤ error.position := by
    rw [ofMarkup, hstop, hposition, Nat.add_assoc]
    exact Nat.le_add_right _ _
  refine ⟨hmarkup, hlower, hupper, read, gap, front, rest, ?_, hstop.symm, hgap, ?_,
    ⟨c, after, hhead, hlineEnd⟩, hfound, fun color hcolor => hfound.color_isPrefix hcolor⟩
  · rw [List.append_assoc, List.append_assoc]
    exact hwhole
  · rw [hposition, List.length_append, List.length_append]

/-- A spec that follows a transition at once, on the next line: its second color is too short. -/
theorem errors_point_at_culprit_region :
    let markup : Text := "\"a\"\r\n\x7br:#12x"
    let error : MarkupError := ⟨markup, 8, .malformedColor "12"⟩
    (ofMarkup markup).error = some error ∧ (ofMarkup markup).stop 0 = 3 ∧
      ∃ read gap front rest, markup = read ++ gap ++ front ++ rest ∧ read.length = 3 ∧
        gap.IsLineEnds ∧ 8 = (read ++ gap ++ front).length ∧ FoundAt error.fault front rest := by
  intro markup error
  have herror : (ofMarkup markup).error = some error := by decide +kernel
  have hstop : (ofMarkup markup).stop 0 = 3 := by decide +kernel
  obtain ⟨-, -, -, read, gap, front, rest, hmarkup, hread, hgap, hposition, -, hfound, -⟩ :=
    errors_point_at_culprit herror
  exact ⟨herror, hstop, read, gap, front, rest, hmarkup, hread.trans hstop, hgap, hposition,
    hfound⟩

end Lexing

end ShellPrompt
