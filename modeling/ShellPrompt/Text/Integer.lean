import ShellPrompt.Text.Blank
import ShellPrompt.Text.Digit
/-!
Integers as people write them: padding around, one sign, decimal digits of any script, and single
underscores between digits.
-/

set_option autoImplicit false

namespace ShellPrompt

/-- The most digits a written integer may have, leading zeros included. -/
def maximumDigits : Nat := 4300

namespace Text

/-- The values of one or more digits, where an underscore may part two neighbours. -/
def digitValues? : Text → Option (List Nat)
  | [] => none
  | c :: rest =>
    match c.digitValue?, rest with
    | none, _ => none
    | some v, [] => some [v]
    | some v, d :: rest =>
      (if d = '_' then digitValues? rest else digitValues? (d :: rest)).map (v :: ·)

def ofDigitValues (digits : List Nat) : Nat :=
  digits.foldl (fun n d => 10 * n + d) 0

def natural? (t : Text) : Option Nat :=
  match digitValues? t with
  | none => none
  | some digits =>
    if digits.length ≤ maximumDigits then some (ofDigitValues digits) else none

def integer? (t : Text) : Option Int :=
  match trimBy CodePoint.isPadding t with
  | [] => none
  | c :: rest =>
    if c = '-' then (natural? rest).map fun n => -(n : Int)
    else if c = '+' then (natural? rest).map fun n => (n : Int)
    else (natural? (c :: rest)).map fun n => (n : Int)

end Text

end ShellPrompt
