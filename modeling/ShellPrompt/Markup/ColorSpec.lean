import ShellPrompt.Markup.GlyphList
/-!
Color specs: a run of attributes. A color sets the foreground, a colon and a color the background,
`!` bold and `/` italic. A color is one letter, or `#` and six hexadecimal digits. A run ends where
no attribute begins, or where a glyph list does.
-/

set_option autoImplicit false

namespace ShellPrompt

namespace ColorSpec

def isSymbol (c : CodePoint) : Bool :=
  c = ':' || c = '#' || c = '!' || c = '/'

def begins : Text → Bool
  | [] => false
  | c :: rest => (c.isLetter || isSymbol c) && !GlyphList.begins (c :: rest)

def leadingDigits (s : Text) : Text :=
  (s.take 6).takeWhile CodePoint.isHexDigit

def scanColor : Text → Scan Color
  | [] => .error ⟨[], .unknownColor none⟩
  | c :: rest =>
    if c = '#' then
      if (leadingDigits rest).length < 6 then
        .error ⟨c :: rest, .malformedColor (leadingDigits rest)⟩
      else .ok (.rgb (Rgb.ofHexDigits (leadingDigits rest)), rest.drop 6)
    else
      match BasicColor.ofLetter? c with
      | some color => .ok (.basic color, rest)
      | none => .error ⟨c :: rest, .unknownColor (some c)⟩

/-- Reads one attribute, as a spec that sets nothing else. -/
def scanAttribute : Text → Scan Spec
  | [] => .error ⟨[], .unknownColor none⟩
  | c :: rest =>
    if c = '!' then .ok ({ Spec.empty with bold := true }, rest)
    else if c = '/' then .ok ({ Spec.empty with italic := true }, rest)
    else if c = ':' then
      match scanColor rest with
      | .error e => .error e
      | .ok (color, rest) => .ok ({ Spec.empty with background := some color }, rest)
    else
      match scanColor (c :: rest) with
      | .error e => .error e
      | .ok (color, rest) => .ok ({ Spec.empty with foreground := some color }, rest)

theorem length_lt_of_scanColor {s rest : Text} {color : Color}
    (h : scanColor s = .ok (color, rest)) : rest.length < s.length := by
  cases s with
  | nil => cases h
  | cons c s =>
    simp only [scanColor] at h
    split at h
    · split at h
      · cases h
      · cases h
        simp only [List.length_drop, List.length_cons]
        omega
    · split at h
      · cases h
        simp
      · cases h

theorem length_lt_of_scanAttribute {s rest : Text} {spec : Spec}
    (h : scanAttribute s = .ok (spec, rest)) : rest.length < s.length := by
  cases s with
  | nil => cases h
  | cons c s =>
    simp only [scanAttribute] at h
    split at h
    · cases h
      simp
    split at h
    · cases h
      simp
    split at h
    · split at h
      · cases h
      next hcolor =>
        cases h
        exact Nat.lt_succ_of_lt (length_lt_of_scanColor hcolor)
    · split at h
      · cases h
      next hcolor =>
        cases h
        exact length_lt_of_scanColor hcolor

/-- Reads the attributes that follow those of `spec`. -/
def scanAfter (spec : Spec) (s : Text) : Scan Spec :=
  if begins s then
    match _h : scanAttribute s with
    | .error e => .error e
    | .ok (next, rest) => scanAfter (spec.andThen next) rest
  else .ok (spec, s)
termination_by s.length
decreasing_by exact length_lt_of_scanAttribute _h

def scan (s : Text) : Scan Spec :=
  scanAfter Spec.empty s

theorem length_le_of_scanAfter {spec spec' : Spec} {s rest : Text}
    (h : scanAfter spec s = .ok (spec', rest)) : rest.length ≤ s.length := by
  fun_induction scanAfter spec s with
  | case1 => cases h
  | case2 spec s _ next rest' hattribute ih =>
    have := ih h
    have := length_lt_of_scanAttribute hattribute
    omega
  | case3 => cases h; exact Nat.le_refl _

theorem length_lt_of_scan {spec : Spec} {s rest : Text} (hbegins : begins s = true)
    (h : scan s = .ok (spec, rest)) : rest.length < s.length := by
  rw [scan, scanAfter, if_pos hbegins] at h
  split at h
  · cases h
  next hattribute =>
    have := length_le_of_scanAfter h
    have := length_lt_of_scanAttribute hattribute
    omega

end ColorSpec

end ShellPrompt
