/-!
Cutting a list at a place that may be counted from its end: a negative place `-k` is `k` before
the end, and places beyond an end are moved to it.
-/

set_option autoImplicit false

namespace ShellPrompt

def placeIn (length : Nat) (place : Int) : Nat :=
  if place < 0 then (place + length).toNat else min place.toNat length

def upTo {α : Type} (place : Int) (xs : List α) : List α :=
  xs.take (placeIn xs.length place)

def startingAt {α : Type} (place : Int) (xs : List α) : List α :=
  xs.drop (placeIn xs.length place)

def between {α : Type} (start stop : Int) (xs : List α) : List α :=
  (xs.take (placeIn xs.length stop)).drop (placeIn xs.length start)

def elementAt? {α : Type} (place : Int) (xs : List α) : Option α :=
  if place < -(xs.length : Int) then none
  else if place < 0 then xs[(place + xs.length).toNat]?
  else xs[place.toNat]?

section Natural

variable {α : Type} (place : Nat) (xs : List α)

theorem placeIn_natCast (length : Nat) : placeIn length place = min place length := by
  rw [placeIn, if_neg (by omega), Int.toNat_natCast]

theorem upTo_natCast : upTo place xs = xs.take place := by
  rw [upTo, placeIn_natCast, ← List.take_eq_take_min]

theorem startingAt_natCast : startingAt place xs = xs.drop place := by
  rw [startingAt, placeIn_natCast]
  rcases Nat.le_total place xs.length with h | h
  · rw [Nat.min_eq_left h]
  · rw [Nat.min_eq_right h, List.drop_length, List.drop_eq_nil_of_le h]

theorem between_natCast (start : Nat) : between start place xs = (xs.take place).drop start := by
  rw [between, placeIn_natCast, placeIn_natCast, ← List.take_eq_take_min]
  rcases Nat.le_total start xs.length with h | h
  · rw [Nat.min_eq_left h]
  · have hshort : (xs.take place).length ≤ xs.length := List.length_take_le' place xs
    rw [Nat.min_eq_right h, List.drop_eq_nil_of_le hshort,
      List.drop_eq_nil_of_le (Nat.le_trans hshort h)]

theorem elementAt?_natCast : elementAt? place xs = xs[place]? := by
  rw [elementAt?, if_neg (by omega), if_neg (by omega), Int.toNat_natCast]

end Natural

end ShellPrompt
