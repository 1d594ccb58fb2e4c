/-!
Text as a list of code points. A code point may be a surrogate that stands alone, so a text can be
more than a `String` can hold; positions, lengths and cuts count code points.
-/

set_option autoImplicit false

namespace ShellPrompt

/-- A number below 0x110000, surrogates included. -/
structure CodePoint where
  val : Nat
  val_lt : val < 0x110000
deriving DecidableEq

namespace CodePoint

def ofChar (c : Char) : CodePoint where
  val := c.toNat
  val_lt := by
    have h := c.valid
    simp only [UInt32.isValidChar, Nat.isValidChar] at h
    simp only [Char.toNat]
    omega

instance : Coe Char CodePoint := ⟨ofChar⟩

instance : Inhabited CodePoint := ⟨ofChar ' '⟩

@[simp] theorem ofChar_inj {a b : Char} : ofChar a = ofChar b ↔ a = b := by
  simp [ofChar, Char.toNat_inj]

/-- The code point with this number; U+FFFD stands in where there is none. -/
def ofNat (n : Nat) : CodePoint :=
  if h : n < 0x110000 then ⟨n, h⟩ else ⟨0xFFFD, by decide⟩

@[simp] theorem val_ofNat {n : Nat} (h : n < 0x110000) : (ofNat n).val = n := by
  simp [ofNat, h]

/-- Half of a pair that stands for one code point in 16-bit text. -/
def isSurrogate (c : CodePoint) : Bool :=
  0xD800 ≤ c.val && c.val ≤ 0xDFFF

/-- Stands in a path for a byte that is not part of UTF-8; no other surrogate is in a path. -/
def isStrayByte (c : CodePoint) : Bool :=
  0xDC80 ≤ c.val && c.val ≤ 0xDCFF

def toChar? (c : CodePoint) : Option Char :=
  if c.isSurrogate then none else some (Char.ofNat c.val)

@[simp] theorem toChar?_eq_none_iff {c : CodePoint} :
    c.toChar? = none ↔ c.isSurrogate = true := by
  simp [toChar?]

def isLetter (c : CodePoint) : Bool :=
  (0x41 ≤ c.val && c.val ≤ 0x5A) || (0x61 ≤ c.val && c.val ≤ 0x7A)

def hexValue? (c : CodePoint) : Option Nat :=
  if 0x30 ≤ c.val && c.val ≤ 0x39 then some (c.val - 0x30)
  else if 0x41 ≤ c.val && c.val ≤ 0x46 then some (c.val - 0x37)
  else if 0x61 ≤ c.val && c.val ≤ 0x66 then some (c.val - 0x57)
  else none

def isHexDigit (c : CodePoint) : Bool :=
  c.hexValue?.isSome

end CodePoint

abbrev Text := List CodePoint

namespace Text

def ofString (s : String) : Text :=
  s.toList.map CodePoint.ofChar

instance : Coe String Text := ⟨ofString⟩

def toString? (t : Text) : Option String :=
  (t.mapM CodePoint.toChar?).map String.ofList

def concat (parts : List Text) : Text :=
  parts.flatten

def join (separator : Text) : List Text → Text
  | [] => []
  | [part] => part
  | part :: parts => part ++ separator ++ join separator parts

/-- The pieces between the occurrences of `separator`, one more than there are occurrences. -/
def splitAt (separator : CodePoint) : Text → List Text
  | [] => [[]]
  | c :: rest =>
    if c = separator then [] :: splitAt separator rest
    else match splitAt separator rest with
      | [] => [[c]]
      | piece :: pieces => (c :: piece) :: pieces

def cut? (mark : CodePoint) : Text → Option (Text × Text)
  | [] => none
  | c :: rest =>
    if c = mark then some ([], rest)
    else (cut? mark rest).map fun (before, after) => (c :: before, after)

def dropHead? (head text : Text) : Option Text :=
  if head.isPrefixOf text then some (text.drop head.length) else none

def double (c : CodePoint) (t : Text) : Text :=
  t.flatMap fun d => if d = c then [d, d] else [d]

def decimal (n : Nat) : Text :=
  (Nat.toDigits 10 n).map CodePoint.ofChar

def integer (i : Int) : Text :=
  if i < 0 then CodePoint.ofChar '-' :: decimal i.natAbs else decimal i.natAbs

/-- The lower-case digits of a number in base sixteen, with zeros in front up to `width`. -/
def hexadecimal (width n : Nat) : Text :=
  let digits := (Nat.toDigits 16 n).map CodePoint.ofChar
  List.replicate (width - digits.length) (CodePoint.ofChar '0') ++ digits

/-- The number that hexadecimal digits stand for; what is no digit counts as zero. -/
def hexNumber (digits : Text) : Nat :=
  digits.foldl (fun n c => 16 * n + c.hexValue?.getD 0) 0

def isHex (t : Text) : Bool :=
  !t.isEmpty && t.all CodePoint.isHexDigit

def le : Text → Text → Bool
  | [], _ => true
  | _ :: _, [] => false
  | a :: s, b :: t => a.val < b.val || (a.val == b.val && le s t)

/--
The capitals A to Z made small. Capitals of other alphabets stay as they are, which a comparison
with `true`, `yes` or `on` does not notice: no other letter has one of theirs as its small letter.
-/
def lower (t : Text) : Text :=
  t.map fun c => if 0x41 ≤ c.val && c.val ≤ 0x5A then CodePoint.ofNat (c.val + 32) else c

end Text

end ShellPrompt
