/-!
Sets of code points given by their ranges.
-/

set_option autoImplicit false

namespace ShellPrompt

/-- Inclusive ranges of numbers in increasing order. -/
abbrev RangeTable := List (Nat × Nat)

namespace RangeTable

def contains (table : RangeTable) (n : Nat) : Bool :=
  table.any fun (low, high) => low ≤ n && n ≤ high

end RangeTable

end ShellPrompt
