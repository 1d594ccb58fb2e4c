/-!
The Mersenne Twister MT19937: a recurrence over 624 words of 32 bits, whose words are tempered as
they are drawn. The words are kept in a ring and each is renewed when it is drawn, which gives the
same sequence as renewing all at once.
-/

set_option autoImplicit false

namespace ShellPrompt

structure Twister where
  words : Array UInt32
  next : Nat
deriving DecidableEq

namespace Twister

def size : Nat := 624

def offset : Nat := 397

/-- A word of the ring with the places counted around it. -/
def word (ws : Array UInt32) (i : Nat) : UInt32 :=
  ws.getD (i % size) 0

def grown (seed : UInt32) : Array UInt32 :=
  (List.range (size - 1)).foldl
    (fun ws i =>
      let last := ws.getD i 0
      ws.push ((1812433253 : UInt32) * (last ^^^ (last >>> 30)) + UInt32.ofNat (i + 1)))
    #[seed]

def carried (ws : Array UInt32) (i : Nat) : UInt32 :=
  let before := ws.getD (i - 1) 0
  before ^^^ (before >>> 30)

def put (ws : Array UInt32) (i : Nat) (w : UInt32) : Array UInt32 × Nat :=
  let ws := ws.setIfInBounds i w
  if i + 1 < size then (ws, i + 1) else (ws.setIfInBounds 0 w, 1)

def mixKey (key : Array UInt32) : Nat → Nat → Nat → Array UInt32 → Array UInt32 × Nat
  | 0, i, _, ws => (ws, i)
  | count + 1, i, j, ws =>
    let w := (ws.getD i 0 ^^^ (carried ws i * 1664525)) + key.getD j 0 + UInt32.ofNat j
    let (ws, i) := put ws i w
    mixKey key count i (if j + 1 < key.size then j + 1 else 0) ws

def mixPlaces : Nat → Nat → Array UInt32 → Array UInt32
  | 0, _, ws => ws
  | count + 1, i, ws =>
    let w := (ws.getD i 0 ^^^ (carried ws i * 1566083941)) - UInt32.ofNat i
    let (ws, i) := put ws i w
    mixPlaces count i ws

def ofKey (key : Array UInt32) : Twister :=
  let (ws, i) := mixKey key (max size key.size) 1 0 (grown 19650218)
  ⟨(mixPlaces (size - 1) i ws).setIfInBounds 0 0x80000000, 0⟩

def digits (n : Nat) : List UInt32 :=
  if n = 0 then [] else UInt32.ofNat n :: digits (n / 0x100000000)
termination_by n
decreasing_by omega

/-- The generator that an integer seeds; its sign does not count. -/
def ofSeed (seed : Int) : Twister :=
  ofKey (if seed = 0 then #[0] else (digits seed.natAbs).toArray)

def temper (y : UInt32) : UInt32 :=
  let y := y ^^^ (y >>> 11)
  let y := y ^^^ ((y <<< 7) &&& 0x9D2C5680)
  let y := y ^^^ ((y <<< 15) &&& 0xEFC60000)
  y ^^^ (y >>> 18)

def draw (t : Twister) : UInt32 × Twister :=
  let i := t.next
  let y := (word t.words i &&& 0x80000000) ||| (word t.words (i + 1) &&& 0x7FFFFFFF)
  let renewed := word t.words (i + offset) ^^^ (y >>> 1) ^^^ (if y &&& 1 = 1 then 0x9908B0DF else 0)
  (temper renewed, ⟨t.words.setIfInBounds i renewed, (i + 1) % size⟩)

end Twister

end ShellPrompt
