import ShellPrompt.Markup.Scan
/-!
Literals: text between double quotes. A backslash before a quote or a backslash stands for the
character after it, `\u` and four hexadecimal digits for a code point, and before any other
character a backslash stands for itself.
-/

set_option autoImplicit false

namespace ShellPrompt

namespace Literal

def fourDigits? (s : Text) : Option (CodePoint × Text) :=
  let digits := s.take 4
  if digits.length = 4 ∧ digits.all CodePoint.isHexDigit then
    some (CodePoint.ofNat (Text.hexNumber digits), s.drop 4)
  else none

def prepend (front : Text) : Scan Text → Scan Text
  | .ok (text, rest) => .ok (front ++ text, rest)
  | .error e => .error e

theorem length_of_fourDigits? {s rest : Text} {c : CodePoint}
    (h : fourDigits? s = some (c, rest)) : rest.length + 4 = s.length := by
  unfold fourDigits? at h
  simp only at h
  split at h
  next hc =>
    cases h
    have := hc.1
    simp only [List.length_take] at this
    simp only [List.length_drop]
    omega
  · cases h

/--
Reads the inside of a literal and its closing quote. `whole` is the markup from the opening quote
on, where a literal without end is reported.
-/
def scanInside (whole : Text) : Text → Scan Text
  | [] => .error ⟨whole, .unterminatedLiteral⟩
  | c :: rest =>
    if c = '"' then .ok ([], rest)
    else if c = '\\' then
      match rest with
      | [] => .error ⟨whole, .unterminatedLiteral⟩
      | e :: after =>
        if e = '"' ∨ e = '\\' then prepend [e] (scanInside whole after)
        else if e = 'u' then
          match _h : fourDigits? after with
          | none => .error ⟨c :: e :: after, .malformedEscape⟩
          | some (code, after) => prepend [code] (scanInside whole after)
        else prepend ['\\', e] (scanInside whole after)
    else prepend [c] (scanInside whole rest)
termination_by s => s.length
decreasing_by
  · simp only [List.length_cons]
    omega
  · have := length_of_fourDigits? _h
    simp only [List.length_cons]
    omega
  · simp only [List.length_cons]
    omega
  · simp

theorem prepend_eq_ok {front text rest : Text} {scanned : Scan Text}
    (h : prepend front scanned = .ok (text, rest)) :
    ∃ inner, scanned = .ok (inner, rest) ∧ text = front ++ inner := by
  unfold prepend at h
  split at h
  · cases h
    exact ⟨_, rfl, rfl⟩
  · cases h

theorem length_lt_of_scanInside {whole s text rest : Text}
    (h : scanInside whole s = .ok (text, rest)) : rest.length < s.length := by
  fun_induction scanInside whole s generalizing text with
  | case1 => cases h
  | case2 rest' => cases h; simp
  | case3 => cases h
  | case4 e after _ _ ih =>
    obtain ⟨_, hinner, _⟩ := prepend_eq_ok h
    have := ih hinner
    simp
    omega
  | case5 => cases h
  | case6 after code after' hfour _ _ ih =>
    obtain ⟨_, hinner, _⟩ := prepend_eq_ok h
    have := ih hinner
    have := length_of_fourDigits? hfour
    simp
    omega
  | case7 e after _ _ _ ih =>
    obtain ⟨_, hinner, _⟩ := prepend_eq_ok h
    have := ih hinner
    simp
    omega
  | case8 c rest' _ _ ih =>
    obtain ⟨_, hinner, _⟩ := prepend_eq_ok h
    have := ih hinner
    simp
    omega

end Literal

end ShellPrompt
