import ShellPrompt.Color.Style
/-!
A terminal that reads escape sequences for colors and attributes. A sequence is read from its
text; what it says is a list of orders, and each order changes the style that is shown.
-/

set_option autoImplicit false

namespace ShellPrompt

inductive Order where
  | reset
  | bold
  | italic
  | color (ground : Ground) (color : Color)
deriving DecidableEq

namespace Order

def basicColor? (n : Nat) : Option Color :=
  (BasicColor.all[n]?).map Color.basic

/-- The order that one number stands for by itself. -/
def single? (n : Nat) : Option Order :=
  if n = 0 then some .reset
  else if n = 1 then some .bold
  else if n = 3 then some .italic
  else if n = 39 then some (.color .foreground .default)
  else if n = 49 then some (.color .background .default)
  else if 30 ≤ n && n ≤ 37 then (basicColor? (n - 30)).map (.color .foreground)
  else if 40 ≤ n && n ≤ 47 then (basicColor? (n - 40)).map (.color .background)
  else none

/-- The order that five numbers stand for together: a mixed color for a side. -/
def mixed? (n kind red green blue : Nat) : Option Order :=
  if kind = 2 then
    if n = 38 then (Rgb.ofComponents? red green blue).map fun c => .color .foreground (.rgb c)
    else if n = 48 then (Rgb.ofComponents? red green blue).map fun c => .color .background (.rgb c)
    else none
  else none

/-- The orders that the numbers of a sequence stand for, or none if one has no meaning here. -/
def ofNumbers? : List Nat → Option (List Order)
  | [] => some []
  | n :: rest =>
    match single? n with
    | some order => (ofNumbers? rest).map (order :: ·)
    | none =>
      match rest with
      | kind :: red :: green :: blue :: rest =>
        match mixed? n kind red green blue with
        | some order => (ofNumbers? rest).map (order :: ·)
        | none => none
      | _ => none

def number? (digits : Text) : Option Nat :=
  if digits.isEmpty || digits.any (fun c => c.val < 0x30 || 0x39 < c.val) then none
  else some (digits.foldl (fun n c => 10 * n + (c.val - 0x30)) 0)

def ofSequence? (t : Text) : Option (List Order) :=
  match Text.dropHead? ['\x1b', '['] t with
  | none => none
  | some rest =>
    match rest.getLast? with
    | none => none
    | some last =>
      if last = 'm' then
        ((Text.splitAt ';' rest.dropLast).mapM number?).bind ofNumbers?
      else none

end Order

namespace Style

def obey (style : Style) : Order → Style
  | .reset => plain
  | .bold => { style with bold := true }
  | .italic => { style with italic := true }
  | .color .foreground c => { style with foreground := c }
  | .color .background c => { style with background := c }

def afterSequences? (style : Style) : List Text → Option Style
  | [] => some style
  | t :: rest =>
    match Order.ofSequence? t with
    | none => none
    | some orders => afterSequences? (orders.foldl obey style) rest

end Style

end ShellPrompt
