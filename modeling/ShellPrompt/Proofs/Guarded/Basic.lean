import ShellPrompt.Text.Basic
/-!
Guarded computations. What a program takes for granted is checked where it does so: that an
assertion holds, that a place lies in a list, that digits are digits and a number is a code point,
that a divisor is not zero, that a text does not get too long. A check that fails is a slip, which
is not a fault that the program reports. A computation that is shown equal to one without guards
has no slips.
-/

set_option autoImplicit false

namespace ShellPrompt

inductive Slip where
  | assertion | index | conversion | division | length
deriving DecidableEq

inductive Halt (ε : Type) where
  | slip (slip : Slip)
  | fault (fault : ε)

def Halt.map {ε δ : Type} (f : ε → δ) : Halt ε → Halt δ
  | slip s => .slip s
  | fault e => .fault (f e)

abbrev Guarded (ε α : Type) := Except (Halt ε) α

namespace Guarded

variable {ε δ α β : Type}

/-- A computation without guards, which has no slips. -/
def ofExcept (x : Except ε α) : Guarded ε α :=
  x.mapError .fault

def mapFault (f : ε → δ) (x : Guarded ε α) : Guarded δ α :=
  x.mapError (Halt.map f)

def require (p : Prop) [Decidable p] : Guarded ε Unit :=
  if p then .ok () else .error (.slip .assertion)

/-- The text after a character that is taken for granted. -/
def expect (c : CodePoint) : Text → Guarded ε Text
  | [] => .error (.slip .assertion)
  | d :: rest => if d = c then .ok rest else .error (.slip .assertion)

def element (xs : List α) (i : Nat) : Guarded ε α :=
  match xs[i]? with
  | some x => .ok x
  | none => .error (.slip .index)

def placeOf [DecidableEq α] (x : α) (xs : List α) : Guarded ε Nat :=
  match xs.idxOf? x with
  | some i => .ok i
  | none => .error (.slip .conversion)

def number (digits : Text) : Guarded ε Nat :=
  if Text.isHex digits then .ok (Text.hexNumber digits) else .error (.slip .conversion)

def character (n : Nat) : Guarded ε CodePoint :=
  if n < 0x110000 then .ok (CodePoint.ofNat n) else .error (.slip .conversion)

def quotient (a b : Nat) : Guarded ε (Nat × Nat) :=
  if b = 0 then .error (.slip .division) else .ok (a / b, a % b)

/-- As many characters as a text can have: what a signed number of 64 bits can count. -/
def longest : Int := 9223372036854775807

def fillable (width : Int) : Guarded ε Unit :=
  if width ≤ longest then .ok () else .error (.slip .length)

@[simp] theorem ofExcept_ok (a : α) : ofExcept (.ok a : Except ε α) = .ok a := rfl

@[simp] theorem ofExcept_error (e : ε) : ofExcept (.error e : Except ε α) = .error (.fault e) := rfl

theorem ofExcept_eq_ok_iff {x : Except ε α} {a : α} : ofExcept x = .ok a ↔ x = .ok a := by
  cases x <;> simp

theorem require_of {p : Prop} [Decidable p] (h : p) : (require p : Guarded ε Unit) = .ok () :=
  if_pos h

@[simp] theorem expect_cons (c : CodePoint) (rest : Text) :
    (expect c (c :: rest) : Guarded ε Text) = .ok rest :=
  if_pos rfl

theorem element_of_getElem? {xs : List α} {i : Nat} {x : α} (h : xs[i]? = some x) :
    (element xs i : Guarded ε α) = .ok x := by
  rw [element, h]

theorem number_of_isHex {digits : Text} (h : Text.isHex digits = true) :
    (number digits : Guarded ε Nat) = .ok (Text.hexNumber digits) :=
  if_pos h

theorem character_of_lt {n : Nat} (h : n < 0x110000) :
    (character n : Guarded ε CodePoint) = .ok (CodePoint.ofNat n) :=
  if_pos h

theorem quotient_of_ne_zero (a : Nat) {b : Nat} (h : b ≠ 0) :
    (quotient a b : Guarded ε (Nat × Nat)) = .ok (a / b, a % b) :=
  if_neg h

theorem fillable_of_le {width : Int} (h : width ≤ longest) :
    (fillable width : Guarded ε Unit) = .ok () :=
  if_pos h

theorem mapM_eq_ofExcept {f : α → Guarded ε β} {g : α → Except ε β}
    (h : ∀ x, f x = ofExcept (g x)) (xs : List α) : xs.mapM f = ofExcept (xs.mapM g) := by
  induction xs with
  | nil => rfl
  | cons x xs ih =>
    rw [List.mapM_cons, List.mapM_cons, h x, ih]
    cases g x with
    | error e => rfl
    | ok y => cases xs.mapM g <;> rfl

end Guarded

end ShellPrompt
