import ShellPrompt.Random.Twister
/-!
A stream of choices among finitely many things. It is either written down in advance, one number
per choice, or drawn from a seeded generator.
-/

set_option autoImplicit false

namespace ShellPrompt

inductive Choices where
  | script (number : Nat → Int) (used : Nat)
  | drawn (generator : Twister)

namespace Choices

def cycle (numbers : List Int) : Choices :=
  script (fun i => numbers[i % numbers.length]?.getD 0) 0

def seeded (seed : Int) : Choices :=
  drawn (Twister.ofSeed seed)

def bitLength (n : Nat) : Nat :=
  if n = 0 then 0 else Nat.log2 n + 1

/-- Draws of the top `bits` bits, until one is at most `n`; zero if `tries` draws all fail. -/
def drawBelow (n bits : Nat) : Nat → Twister → Fin (n + 1) × Twister
  | 0, t => (0, t)
  | tries + 1, t =>
    let (w, t) := t.draw
    let r := w.toNat / 2 ^ (32 - bits)
    if h : r < n + 1 then (⟨r, h⟩, t) else drawBelow n bits tries t

/-- More draws than are ever needed: each fails with a chance below one half. -/
def tries : Nat := 1000000000

def choose (n : Nat) : Choices → Fin (n + 1) × Choices
  | script number used =>
    (Fin.ofNat (n + 1) (number used % (n + 1 : Int)).toNat, script number (used + 1))
  | drawn t =>
    let (i, t) := drawBelow n (bitLength (n + 1)) tries t
    (i, drawn t)

end Choices

end ShellPrompt
