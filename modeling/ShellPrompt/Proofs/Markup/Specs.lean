import Mathlib.Data.List.TakeWhile
import ShellPrompt.Proofs.Markup.Dispatch
import ShellPrompt.Proofs.Markup.Grammar
/-!
Color specs: the scanner takes exactly what the grammar calls a color or an attribute, and it takes
the same whatever follows. So a spec ends where no attribute begins, and not before.
-/

set_option autoImplicit false

namespace ShellPrompt

open Grammar

theorem BasicColor.mem_letters_iff {c : CodePoint} :
    c ∈ (['k', 'r', 'g', 'y', 'b', 'm', 'c', 'w'] : Text) ↔
      ∃ color : BasicColor, c = color.letter := by
  constructor
  · intro h
    simp only [List.mem_cons, List.not_mem_nil, or_false] at h
    rcases h with rfl | rfl | rfl | rfl | rfl | rfl | rfl | rfl
    · exact ⟨.black, rfl⟩
    · exact ⟨.red, rfl⟩
    · exact ⟨.green, rfl⟩
    · exact ⟨.yellow, rfl⟩
    · exact ⟨.blue, rfl⟩
    · exact ⟨.magenta, rfl⟩
    · exact ⟨.cyan, rfl⟩
    · exact ⟨.white, rfl⟩
  · rintro ⟨color, rfl⟩
    cases color <;> simp [letter]

namespace ColorSpec

/-- Whether a character can begin an attribute that the scanner accepts. -/
def isHead (c : CodePoint) : Bool :=
  (BasicColor.ofLetter? c).isSome || isSymbol c

theorem leadingDigits_append {digits : Text} (hlength : digits.length = 6)
    (hhex : ∀ c ∈ digits, c.isHexDigit = true) (rest : Text) :
    leadingDigits (digits ++ rest) = digits := by
  have htake : (digits ++ rest).take 6 = digits := by
    rw [← hlength]
    exact List.take_left
  rw [leadingDigits, htake]
  exact List.takeWhile_eq_self_iff.mpr hhex

theorem leadingDigits_eq_take {s : Text} (h : 6 ≤ (leadingDigits s).length) :
    leadingDigits s = s.take 6 := by
  have hprefix : leadingDigits s <+: s.take 6 := List.takeWhile_prefix _
  refine hprefix.eq_of_length_le ?_
  rw [List.length_take]
  omega

theorem exists_scanColor_eq_ok {raw : Text} (h : IsColor raw) :
    ∃ color, ∀ rest, scanColor (raw ++ rest) = .ok (color, rest) := by
  cases h with
  | @letter c h =>
    obtain ⟨color, rfl⟩ := BasicColor.mem_letters_iff.mp h
    refine ⟨.basic color, fun rest => ?_⟩
    have hne : color.letter ≠ CodePoint.ofChar '#' := by cases color <;> decide
    simp [scanColor, hne]
  | @hash digits hlength hhex =>
    refine ⟨.rgb (Rgb.ofHexDigits digits), fun rest => ?_⟩
    have hdrop : (digits ++ rest).drop 6 = rest := by
      rw [← hlength]
      exact List.drop_left
    rw [List.cons_append, scanColor, if_pos rfl, leadingDigits_append hlength hhex, hdrop,
      if_neg (by omega)]

theorem isColor_of_scanColor_eq_ok {s rest : Text} {color : Color}
    (h : scanColor s = .ok (color, rest)) : ∃ raw, s = raw ++ rest ∧ IsColor raw := by
  cases s with
  | nil => cases h
  | cons c s =>
    rw [scanColor] at h
    by_cases hhash : c = CodePoint.ofChar '#'
    · rw [if_pos hhash] at h
      by_cases hshort : (leadingDigits s).length < 6
      · rw [if_pos hshort] at h
        cases h
      · rw [if_neg hshort] at h
        cases h
        have htake := leadingDigits_eq_take (Nat.le_of_not_lt hshort)
        have hhex : ∀ d ∈ s.take 6, d.isHexDigit = true := by
          rw [← htake]
          intro d hd
          exact List.mem_takeWhile_imp hd
        refine ⟨c :: s.take 6, by simp, hhash ▸ .hash ?_ hhex⟩
        rw [htake, List.length_take] at hshort
        rw [List.length_take]
        omega
    · rw [if_neg hhash] at h
      cases hletter : BasicColor.ofLetter? c with
      | none =>
        rw [hletter] at h
        cases h
      | some color =>
        rw [hletter] at h
        cases h
        have hmem := BasicColor.mem_letters_iff.mpr
          ⟨color, BasicColor.ofLetter?_eq_some_iff.mp hletter⟩
        exact ⟨[c], rfl, .letter hmem⟩

theorem exists_scanAttribute_eq_ok {raw : Text} (h : IsAttribute raw) :
    ∃ spec, ∀ rest, scanAttribute (raw ++ rest) = .ok (spec, rest) := by
  cases h with
  | bold => exact ⟨_, fun _ => rfl⟩
  | italic => exact ⟨_, fun _ => rfl⟩
  | background h =>
    obtain ⟨color, hcolor⟩ := exists_scanColor_eq_ok h
    refine ⟨{ Spec.empty with background := some color }, fun rest => ?_⟩
    rw [List.cons_append, scanAttribute, if_neg (by decide), if_neg (by decide), if_pos rfl,
      hcolor]
  | foreground h =>
    obtain ⟨color, hcolor⟩ := exists_scanColor_eq_ok h
    refine ⟨{ Spec.empty with foreground := some color }, fun rest => ?_⟩
    cases h with
    | @letter c h =>
      obtain ⟨color, rfl⟩ := BasicColor.mem_letters_iff.mp h
      have hbold : color.letter ≠ CodePoint.ofChar '!' := by cases color <;> decide
      have hitalic : color.letter ≠ CodePoint.ofChar '/' := by cases color <;> decide
      have hcolon : color.letter ≠ CodePoint.ofChar ':' := by cases color <;> decide
      have hrest := hcolor rest
      rw [List.cons_append, List.nil_append] at hrest ⊢
      rw [scanAttribute, if_neg hbold, if_neg hitalic, if_neg hcolon, hrest]
    | hash hlength hhex =>
      have hrest := hcolor rest
      rw [List.cons_append] at hrest ⊢
      rw [scanAttribute, if_neg (by decide), if_neg (by decide), if_neg (by decide), hrest]

theorem isAttribute_of_scanAttribute_eq_ok {s rest : Text} {spec : Spec}
    (h : scanAttribute s = .ok (spec, rest)) : ∃ raw, s = raw ++ rest ∧ IsAttribute raw := by
  cases s with
  | nil => cases h
  | cons c s =>
    rw [scanAttribute] at h
    by_cases hbold : c = CodePoint.ofChar '!'
    · rw [if_pos hbold] at h
      cases h
      exact ⟨[c], rfl, hbold ▸ .bold⟩
    rw [if_neg hbold] at h
    by_cases hitalic : c = CodePoint.ofChar '/'
    · rw [if_pos hitalic] at h
      cases h
      exact ⟨[c], rfl, hitalic ▸ .italic⟩
    rw [if_neg hitalic] at h
    by_cases hcolon : c = CodePoint.ofChar ':'
    · rw [if_pos hcolon] at h
      cases hscan : scanColor s with
      | error e =>
        rw [hscan] at h
        cases h
      | ok result =>
        rw [hscan] at h
        cases h
        obtain ⟨raw, hraw, hcolor⟩ := isColor_of_scanColor_eq_ok hscan
        exact ⟨c :: raw, by rw [hraw, List.cons_append], hcolon ▸ .background hcolor⟩
    · rw [if_neg hcolon] at h
      cases hscan : scanColor (c :: s) with
      | error e =>
        rw [hscan] at h
        cases h
      | ok result =>
        rw [hscan] at h
        cases h
        obtain ⟨raw, hraw, hcolor⟩ := isColor_of_scanColor_eq_ok hscan
        exact ⟨raw, hraw, .foreground hcolor⟩

theorem isHead_letter (color : BasicColor) : isHead color.letter = true := by
  simp [isHead]

theorem begins_of_isHead {c : CodePoint} (h : isHead c = true) (s : Text) :
    begins (c :: s) = true := by
  have hcases : (∃ color : BasicColor, c = color.letter) ∨ isSymbol c = true := by
    rw [isHead, Bool.or_eq_true, Option.isSome_iff_exists] at h
    rcases h with ⟨color, hcolor⟩ | h
    · exact Or.inl ⟨color, BasicColor.ofLetter?_eq_some_iff.mp hcolor⟩
    · exact Or.inr h
  rcases hcases with ⟨color, rfl⟩ | h
  · cases color <;> rfl
  · simp only [isSymbol, Bool.or_eq_true, decide_eq_true_eq] at h
    rcases h with ((rfl | rfl) | rfl) | rfl <;> rfl

theorem exists_head_of_isColor {raw : Text} (h : IsColor raw) :
    ∃ c s, raw = c :: s ∧ isHead c = true := by
  cases h with
  | letter h =>
    obtain ⟨color, rfl⟩ := BasicColor.mem_letters_iff.mp h
    exact ⟨_, _, rfl, isHead_letter color⟩
  | hash hlength hhex => exact ⟨_, _, rfl, rfl⟩

theorem exists_head_of_isAttribute {raw : Text} (h : IsAttribute raw) :
    ∃ c s, raw = c :: s ∧ isHead c = true := by
  cases h with
  | bold => exact ⟨_, _, rfl, rfl⟩
  | italic => exact ⟨_, _, rfl, rfl⟩
  | background h => exact ⟨_, _, rfl, rfl⟩
  | foreground h => exact exists_head_of_isColor h

theorem exists_head_of_isSpec {raw : Text} (h : IsSpec raw) :
    ∃ c s, raw = c :: s ∧ isHead c = true := by
  cases h with
  | single h => exact exists_head_of_isAttribute h
  | more h hrest =>
    obtain ⟨c, s, rfl, hc⟩ := exists_head_of_isAttribute h
    exact ⟨c, _, rfl, hc⟩

end ColorSpec

end ShellPrompt
