import ShellPrompt.Text.Basic
/-!
UTF-8, read and written. Reading splits bytes into well-formed characters and the longest
beginnings of characters that are not finished; bytes with such a beginning have no text, and a text
with a surrogate has no bytes.
-/

set_option autoImplicit false

namespace ShellPrompt

abbrev Bytes := List UInt8

namespace Utf8

/--
Reads `count` more bytes of a character. The first of them must lie between `low` and `high`, the
others between 0x80 and 0xBF. Answers the character, or none where the bytes stop being one, and
what follows.
-/
def more (value : Nat) : Nat → Nat → Nat → Bytes → Option CodePoint × Bytes
  | 0, _, _, bytes => (some (CodePoint.ofNat value), bytes)
  | _ + 1, _, _, [] => (none, [])
  | count + 1, low, high, b :: bytes =>
    if low ≤ b.toNat && b.toNat ≤ high then
      more (64 * value + (b.toNat - 0x80)) count 0x80 0xBF bytes
    else (none, b :: bytes)

def first (b : UInt8) (bytes : Bytes) : Option CodePoint × Bytes :=
  let n := b.toNat
  if n < 0x80 then (some (CodePoint.ofNat n), bytes)
  else if 0xC2 ≤ n && n ≤ 0xDF then more (n - 0xC0) 1 0x80 0xBF bytes
  else if 0xE0 ≤ n && n ≤ 0xEF then
    more (n - 0xE0) 2 (if n = 0xE0 then 0xA0 else 0x80) (if n = 0xED then 0x9F else 0xBF) bytes
  else if 0xF0 ≤ n && n ≤ 0xF4 then
    more (n - 0xF0) 3 (if n = 0xF0 then 0x90 else 0x80) (if n = 0xF4 then 0x8F else 0xBF) bytes
  else (none, bytes)

theorem length_more_le (value count low high : Nat) (bytes : Bytes) :
    (more value count low high bytes).2.length ≤ bytes.length := by
  induction bytes generalizing value count low high with
  | nil => cases count <;> simp [more]
  | cons b bytes ih =>
    cases count with
    | zero => simp [more]
    | succ count =>
      simp only [more]
      split
      · exact Nat.le_succ_of_le (ih _ _ _ _)
      · simp

theorem length_first_le (b : UInt8) (bytes : Bytes) :
    (first b bytes).2.length ≤ bytes.length := by
  simp only [first]
  repeat' split
  all_goals first | exact length_more_le _ _ _ _ _ | exact Nat.le_refl _

/-- The characters of the bytes in order, with none for each ill-formed part. -/
def parts : Bytes → List (Option CodePoint)
  | [] => []
  | b :: bytes =>
    (first b bytes).1 :: parts (first b bytes).2
termination_by bytes => bytes.length
decreasing_by
  have := length_first_le b bytes
  simp
  omega

def decode? (bytes : Bytes) : Option Text :=
  (parts bytes).mapM id

def encodeChar (c : Char) : Bytes :=
  let n := c.toNat
  let tail (shift : Nat) : UInt8 := UInt8.ofNat (0x80 + n / shift % 64)
  if n < 0x80 then [UInt8.ofNat n]
  else if n < 0x800 then [UInt8.ofNat (0xC0 + n / 64), tail 1]
  else if n < 0x10000 then [UInt8.ofNat (0xE0 + n / 4096), tail 64, tail 1]
  else [UInt8.ofNat (0xF0 + n / 262144), tail 4096, tail 64, tail 1]

def encode (characters : List Char) : Bytes :=
  characters.flatMap encodeChar

/-- The bytes of a text; there are none for a text with a surrogate. -/
def encode? (t : Text) : Option Bytes :=
  (t.mapM CodePoint.toChar?).map encode

theorem encode?_eq_none_iff {t : Text} :
    encode? t = none ↔ t.any CodePoint.isSurrogate = true := by
  rw [encode?, Option.map_eq_none_iff]
  induction t with
  | nil => simp
  | cons c t ih =>
    cases hc : c.toChar? with
    | none => simp [hc, CodePoint.toChar?_eq_none_iff.mp hc]
    | some character =>
      have hplain : c.isSurrogate = false := by
        cases hsurrogate : c.isSurrogate with
        | false => rfl
        | true => simp [CodePoint.toChar?_eq_none_iff.mpr hsurrogate] at hc
      rw [List.mapM_cons, hc, List.any_cons, hplain, Bool.false_or, ← ih]
      cases t.mapM CodePoint.toChar? <;> simp

end Utf8

def Text.unifyLineEnds : Text → Text
  | [] => []
  | c :: rest =>
    if c = '\r' then
      match rest with
      | [] => ['\n']
      | d :: rest =>
        if d = '\n' then '\n' :: unifyLineEnds rest else '\n' :: unifyLineEnds (d :: rest)
    else c :: unifyLineEnds rest

end ShellPrompt
