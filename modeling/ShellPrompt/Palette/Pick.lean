import ShellPrompt.Number.Total
import ShellPrompt.Palette.Basic
/-!
Which palette entry a new repository gets: one that no recent repository has, and among those one
that looks least like the recent ones. Likeness is a penalty between entries, and a neighbor in
the history counts half as much with each step back.
-/

set_option autoImplicit false

namespace ShellPrompt

namespace Palette

def wheelSize : Nat := 13

def wheelDistance (a b : Nat) : Nat :=
  let d := (a - b) + (b - a)
  min d (wheelSize - d)

def onWheel? (index : Int) : Option Nat :=
  if 0 ≤ index ∧ index < wheelSize then some index.toNat else none

/-- How alike two entries look: neighbors on the wheel much, entries two apart a little. -/
def penalty (a b : Int) : Nat :=
  match onWheel? a, onWheel? b with
  | some a, some b =>
    if wheelDistance a b = 1 then 4 else if wheelDistance a b = 2 then 1 else 0
  | _, _ => 0

def recencyWeight : Nat := 1024

def cost (candidate : Int) (history : List Int) : Nat :=
  total (history.mapIdx fun i used => penalty candidate used * recencyWeight >>> i)

def historyLimit : Nat := 10

def firstLeast? {α : Type} (key : α → Nat) : List α → Option α
  | [] => none
  | a :: rest =>
    match firstLeast? key rest with
    | none => some a
    | some b => if key b < key a then some b else some a

def unused (history : List Int) : List Nat :=
  (List.range size).filter fun i => !history.contains (i : Int)

/-- The index for the next repository: the first of least cost among those not used recently. -/
def pick (history : List Int) : Nat :=
  let recent := history.take historyLimit
  (firstLeast? (fun i : Nat => cost i recent) (unused recent)).getD 0

end Palette

end ShellPrompt
