import ShellPrompt.Proofs.Markup.Appending
/-!
Lexing markup that is cut at a line break. Only a bar is read as a line break, and no token before
it depends on what comes after; so the markup before the bar has these tokens and no fault.
-/

set_option autoImplicit false

namespace ShellPrompt

theorem prefix_of_prefix_append_cons {α : Type} {front s rest : List α} {mark : α}
    (h : front <+: s ++ mark :: rest) (hmark : mark ∉ front) : front <+: s := by
  rcases List.prefix_or_prefix_of_prefix h (List.prefix_append s (mark :: rest)) with hs | hs
  · exact hs
  · obtain ⟨more, rfl⟩ := hs
    have hmore : more <+: mark :: rest := (List.prefix_append_right_inj s).mp h
    cases more with
    | nil => simp
    | cons c more =>
      have hc : c = mark := (List.cons_prefix_cons.mp hmore).1
      exact absurd (List.mem_append_right s (hc ▸ List.mem_cons_self)) hmark

theorem GlyphList.begins_of_append_bar {s rest : Text}
    (h : begins (s ++ CodePoint.ofChar '|' :: rest) = true) : begins s = true := by
  simp only [begins, Bool.or_eq_true, List.isPrefixOf_iff_prefix] at h ⊢
  rcases h with (h | h) | h
  · exact Or.inl (Or.inl (prefix_of_prefix_append_cons h (by decide)))
  · exact Or.inl (Or.inr (prefix_of_prefix_append_cons h (by decide)))
  · exact Or.inr (prefix_of_prefix_append_cons h (by decide))

theorem ColorSpec.not_begins_of_append_bar {s rest : Text}
    (h : begins (s ++ CodePoint.ofChar '|' :: rest) = false) : begins s = false := by
  cases s with
  | nil => rfl
  | cons c s =>
    rw [List.cons_append, begins_cons, Bool.and_eq_false_iff] at h
    rw [begins_cons, Bool.and_eq_false_iff]
    rcases h with h | h
    · exact Or.inl h
    · right
      rw [Bool.not_eq_false'] at h ⊢
      exact GlyphList.begins_of_append_bar h

namespace Lexeme

theorem EndsAt.of_append_bar {lexeme : Lexeme} {s rest : Text}
    (h : lexeme.EndsAt (s ++ CodePoint.ofChar '|' :: rest)) : lexeme.EndsAt s := by
  cases lexeme with
  | separators | fill | segmentBreak | literal | lineBreak | reset => trivial
  | transition => exact ColorSpec.not_begins_of_append_bar h
  | spec => exact ColorSpec.not_begins_of_append_bar h
  | whitespace =>
    cases s with
    | nil => rfl
    | cons c s =>
      have hc : ¬ c.isSpacing = true := List.dropWhile_eq_self_iff.mp h (by simp)
      exact List.dropWhile_cons_of_neg hc

theorem eq_bar_of_scan_eq_lineBreak {c : CodePoint} {s rest : Text}
    (h : scan c s = .ok (.lineBreak, rest)) : c = CodePoint.ofChar '|' ∧ s = rest :=
  isReadFrom_of_scan_eq_ok h

end Lexeme

namespace Lexing

theorem ofRest_before_lineBreak {markup s : Text} {position : Nat} {before after : List Token}
    {lineBreak : Token} (h : (ofRest markup position s).tokens = before ++ lineBreak :: after)
    (hbreak : lineBreak.lexeme = .lineBreak) (other : Text) :
    ∃ front rest, s = front ++ CodePoint.ofChar '|' :: rest ∧
      lineBreak.start = position + front.length ∧ ofRest other position front = ⟨before, none⟩ := by
  induction s using tokenwise generalizing position before with
  | nil =>
    rw [ofRest] at h
    cases before <;> cases h
  | lineEnd c s hc ih =>
    rw [ofRest_of_isLineEnd hc] at h
    obtain ⟨front, rest, rfl, hstart, hfront⟩ := ih h
    refine ⟨c :: front, rest, rfl, ?_, ?_⟩
    · rw [hstart, List.length_cons]
      omega
    · rw [ofRest_of_isLineEnd hc, hfront]
  | fault c s e hc hscan =>
    rw [ofRest_of_scan_eq_error hc hscan] at h
    cases before <;> cases h
  | token c raw rest lexeme hc hend hlocal ih =>
    rw [ofRest_of_scan_eq_ok hc (hlocal rest hend)] at h
    cases before with
    | nil =>
      cases h
      have hscan := hlocal rest hend
      rw [show lexeme = .lineBreak from hbreak] at hscan
      obtain ⟨rfl, hraw⟩ := Lexeme.eq_bar_of_scan_eq_lineBreak hscan
      have hnil : raw = [] := List.append_left_eq_self.mp hraw
      subst hnil
      refine ⟨[], rest, rfl, rfl, ?_⟩
      rw [ofRest]
    | cons first before =>
      obtain ⟨rfl, htokens⟩ := List.cons.inj h
      obtain ⟨front, after', rfl, hstart, hfront⟩ := ih htokens
      refine ⟨c :: raw ++ front, after', (List.append_assoc _ _ _).symm, ?_, ?_⟩
      · rw [hstart, List.length_append]
        omega
      · rw [ofRest_of_scan_eq_ok hc (hlocal front hend.of_append_bar), hfront]
        rfl

end Lexing

end ShellPrompt
