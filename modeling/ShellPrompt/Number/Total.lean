/-!
Sums of natural numbers.
-/

set_option autoImplicit false

namespace ShellPrompt

def total : List Nat → Nat
  | [] => 0
  | n :: rest => n + total rest

@[simp] theorem total_nil : total [] = 0 := rfl

@[simp] theorem total_cons (n : Nat) (rest : List Nat) :
    total (n :: rest) = n + total rest := rfl

@[simp] theorem total_append (front rest : List Nat) :
    total (front ++ rest) = total front + total rest := by
  induction front with
  | nil => simp
  | cons n front ih => rw [List.cons_append, total_cons, ih, total_cons, Nat.add_assoc]

end ShellPrompt
