import Mathlib.Algebra.Group.Nat.Defs
import Mathlib.Data.List.Induction
import ShellPrompt.Text.Basic
/-!
Numbers in base sixteen are read back as they were written, and are written with as many digits as
asked for whenever that many can hold them. They are written with small letters, and capital ones
are read alike.
-/

set_option autoImplicit false

namespace ShellPrompt

theorem CodePoint.hexValue?_digitChar {d : Nat} (h : d < 16) :
    (CodePoint.ofChar d.digitChar).hexValue? = some d := by
  have hall : ∀ d : Fin 16, (CodePoint.ofChar d.val.digitChar).hexValue? = some d.val := by decide
  exact hall ⟨d, h⟩

def CodePoint.lower (c : CodePoint) : CodePoint :=
  if 0x41 ≤ c.val && c.val ≤ 0x5A then ofNat (c.val + 32) else c

theorem CodePoint.hexValue?_lower (c : CodePoint) : c.lower.hexValue? = c.hexValue? := by
  rw [lower]
  by_cases hcapital : 0x41 ≤ c.val ∧ c.val ≤ 0x5A
  · rw [if_pos (by simpa using hcapital), hexValue?, hexValue?, val_ofNat (by omega)]
    grind
  · rw [if_neg (by simpa using hcapital)]

theorem CodePoint.lower_digitChar {d : Nat} (h : d < 16) :
    (ofChar d.digitChar).lower = ofChar d.digitChar := by
  have hall : ∀ d : Fin 16, (ofChar d.val.digitChar).lower = ofChar d.val.digitChar := by decide
  exact hall ⟨d, h⟩

theorem CodePoint.lt_of_hexValue?_eq_some {c : CodePoint} {d : Nat} (h : c.hexValue? = some d) :
    d < 16 := by
  rw [hexValue?] at h
  grind

theorem CodePoint.lower_of_hexValue?_eq_some {c : CodePoint} {d : Nat}
    (h : c.hexValue? = some d) : c.lower = ofChar d.digitChar := by
  have hall : ∀ n : Fin 0x67, ∀ d : Fin 16, (ofNat n.val).hexValue? = some d.val →
      (ofNat n.val).lower = ofChar d.val.digitChar := by decide +kernel
  have hval : c.val < 0x67 := by
    rw [hexValue?] at h
    grind
  have hc : ofNat c.val = c := by rw [ofNat, dif_pos c.val_lt]
  have hlower := hall ⟨c.val, hval⟩ ⟨d, lt_of_hexValue?_eq_some h⟩
  simp only [hc] at hlower
  exact hlower h

namespace Text

def hexDigits (n : Nat) : Text :=
  (Nat.toDigits 16 n).map CodePoint.ofChar

theorem hexadecimal_eq (width n : Nat) :
    hexadecimal width n =
      List.replicate (width - (hexDigits n).length) (CodePoint.ofChar '0') ++ hexDigits n := rfl

theorem hexDigits_of_lt {n : Nat} (h : n < 16) :
    hexDigits n = [CodePoint.ofChar n.digitChar] := by
  rw [hexDigits, Nat.toDigits_of_lt_base h]
  rfl

theorem hexDigits_of_le {n : Nat} (h : 16 ≤ n) :
    hexDigits n = hexDigits (n / 16) ++ [CodePoint.ofChar (n % 16).digitChar] := by
  rw [hexDigits, Nat.toDigits_of_base_le (by decide) h, List.map_append]
  rfl

@[simp] theorem hexNumber_append_singleton (digits : Text) (c : CodePoint) :
    hexNumber (digits ++ [c]) = 16 * hexNumber digits + c.hexValue?.getD 0 := by
  simp [hexNumber]

theorem hexNumber_lt (digits : Text) : hexNumber digits < 16 ^ digits.length := by
  induction digits using List.reverseRecOn with
  | nil => decide
  | append_singleton digits c ih =>
    have hvalue : c.hexValue?.getD 0 < 16 := by
      cases hc : c.hexValue? with
      | none => decide
      | some d => exact CodePoint.lt_of_hexValue?_eq_some hc
    rw [hexNumber_append_singleton, List.length_append, List.length_singleton, Nat.pow_succ]
    omega

theorem hexNumber_replicate_zero_append (count : Nat) (digits : Text) :
    hexNumber (List.replicate count (CodePoint.ofChar '0') ++ digits) = hexNumber digits := by
  induction count with
  | zero => rfl
  | succ count ih =>
    rw [← ih]
    rfl

theorem hexNumber_hexDigits (n : Nat) : hexNumber (hexDigits n) = n := by
  induction n using Nat.strongRecOn with
  | ind n ih =>
    rcases Nat.lt_or_ge n 16 with hlt | hge
    · rw [hexDigits_of_lt hlt]
      simp [hexNumber, CodePoint.hexValue?_digitChar hlt]
    · have hlast := CodePoint.hexValue?_digitChar (Nat.mod_lt n (by decide : 0 < 16))
      rw [hexDigits_of_le hge, hexNumber_append_singleton, ih (n / 16) (by omega), hlast,
        Option.getD_some]
      exact Nat.div_add_mod n 16

theorem exists_digit_of_mem_hexDigits {n : Nat} {c : CodePoint} (h : c ∈ hexDigits n) :
    ∃ d < 16, c = CodePoint.ofChar d.digitChar := by
  induction n using Nat.strongRecOn with
  | ind n ih =>
    rcases Nat.lt_or_ge n 16 with hlt | hge
    · rw [hexDigits_of_lt hlt, List.mem_singleton] at h
      exact ⟨n, hlt, h⟩
    · rw [hexDigits_of_le hge, List.mem_append, List.mem_singleton] at h
      rcases h with h | rfl
      · exact ih (n / 16) (by omega) h
      · exact ⟨_, Nat.mod_lt n (by decide), rfl⟩

theorem isHexDigit_of_mem_hexDigits {n : Nat} {c : CodePoint} (h : c ∈ hexDigits n) :
    c.isHexDigit = true := by
  obtain ⟨d, hd, rfl⟩ := exists_digit_of_mem_hexDigits h
  rw [CodePoint.isHexDigit, CodePoint.hexValue?_digitChar hd]
  rfl

/-- A number is read back from its digits, with zeros in front or not. -/
theorem hexNumber_hexadecimal (width n : Nat) : hexNumber (hexadecimal width n) = n := by
  rw [hexadecimal_eq, hexNumber_replicate_zero_append, hexNumber_hexDigits]

theorem length_hexadecimal {width n : Nat} (hwidth : 0 < width) (h : n < 16 ^ width) :
    (hexadecimal width n).length = width := by
  have hlength : (hexDigits n).length ≤ width := by
    rw [hexDigits, List.length_map]
    exact (Nat.length_toDigits_le_iff (by decide) hwidth).mpr h
  rw [hexadecimal_eq, List.length_append, List.length_replicate]
  omega

theorem isHexDigit_of_mem_hexadecimal {width n : Nat} {c : CodePoint}
    (h : c ∈ hexadecimal width n) : c.isHexDigit = true := by
  rw [hexadecimal_eq, List.mem_append] at h
  rcases h with h | h
  · rw [List.eq_of_mem_replicate h]
    rfl
  · exact isHexDigit_of_mem_hexDigits h

theorem lower_eq_map (t : Text) : t.lower = t.map CodePoint.lower := rfl

@[simp] theorem hexNumber_lower (t : Text) : hexNumber t.lower = hexNumber t := by
  simp only [hexNumber, lower_eq_map, List.foldl_map, CodePoint.hexValue?_lower]

theorem isHexDigit_of_mem_of_lower {t : Text} (h : ∀ c ∈ t.lower, c.isHexDigit = true)
    {c : CodePoint} (hc : c ∈ t) : c.isHexDigit = true := by
  have hlower := h c.lower (List.mem_map_of_mem hc)
  rwa [CodePoint.isHexDigit, CodePoint.hexValue?_lower] at hlower

theorem lower_hexadecimal (width n : Nat) : (hexadecimal width n).lower = hexadecimal width n := by
  have hone : ∀ c ∈ hexadecimal width n, c.lower = id c := by
    intro c hc
    rw [hexadecimal_eq, List.mem_append] at hc
    rcases hc with hc | hc
    · rw [List.eq_of_mem_replicate hc]
      exact CodePoint.lower_digitChar (d := 0) (by decide)
    · obtain ⟨d, hd, rfl⟩ := exists_digit_of_mem_hexDigits hc
      exact CodePoint.lower_digitChar hd
  rw [lower_eq_map, List.map_congr_left hone, List.map_id]

theorem hexadecimal_succ {width n d : Nat} (hwidth : 0 < width) (hd : d < 16) :
    hexadecimal (width + 1) (16 * n + d) =
      hexadecimal width n ++ [CodePoint.ofChar d.digitChar] := by
  rw [hexadecimal_eq, hexadecimal_eq]
  rcases Nat.eq_zero_or_pos n with rfl | hn
  · have hzeros : width - 1 + 1 = width := by omega
    have hzero : CodePoint.ofChar (Nat.digitChar 0) = CodePoint.ofChar '0' := rfl
    rw [Nat.mul_zero, Nat.zero_add, hexDigits_of_lt hd, hexDigits_of_lt (by decide),
      List.length_singleton, List.length_singleton, Nat.add_sub_cancel, hzero,
      ← List.replicate_succ', hzeros]
  · have hlast : (16 * n + d) % 16 = d := by omega
    have hfront : (16 * n + d) / 16 = n := by omega
    rw [hexDigits_of_le (by omega), hlast, hfront, List.length_append, List.length_singleton,
      Nat.add_sub_add_right, List.append_assoc]

theorem lower_eq_hexadecimal {t : Text} (hne : t ≠ []) (h : ∀ c ∈ t, c.isHexDigit = true) :
    t.lower = hexadecimal t.length (hexNumber t) := by
  induction t using List.reverseRecOn with
  | nil => exact absurd rfl hne
  | append_singleton front c ih =>
    obtain ⟨hfront, hlast⟩ := List.forall_mem_append.mp h
    obtain ⟨d, hd⟩ := Option.isSome_iff_exists.mp (hlast c List.mem_cons_self)
    have hdigit := CodePoint.lower_of_hexValue?_eq_some hd
    have hlt := CodePoint.lt_of_hexValue?_eq_some hd
    rw [hexNumber_append_singleton, hd, Option.getD_some, List.length_append,
      List.length_singleton, lower_eq_map, List.map_append, List.map_singleton, hdigit]
    by_cases hsingle : front = []
    · have hzero : 16 * hexNumber [] + d = d := Nat.zero_add d
      rw [hsingle, hzero, hexadecimal_eq, hexDigits_of_lt hlt]
      rfl
    · rw [hexadecimal_succ (List.length_pos_iff.mpr hsingle) hlt, ← ih hsingle hfront,
        lower_eq_map]

theorem hexadecimal_ne_nil (width n : Nat) : hexadecimal width n ≠ [] := by
  have hdigits : hexDigits n ≠ [] := by simp [hexDigits]
  simp [hexadecimal_eq, hdigits]

end Text

end ShellPrompt
