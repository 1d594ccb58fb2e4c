import ShellPrompt.Text.Basic
/-!
Decimal digits for numbers that are held in sixty-four bits. A number is written by the fewest
digits that read back as the same bits; of several such the nearest are taken.
-/

set_option autoImplicit false

namespace ShellPrompt

/--
A number `significand * 2 ^ exponent` without its sign, and whether the number before it is only
half as far away as the number after it.
-/
structure Binary where
  significand : Nat
  exponent : Int
  narrowBelow : Bool
deriving DecidableEq

structure Decimal where
  digits : Nat
  scale : Int
deriving DecidableEq

namespace Binary

def ofBits (bits : UInt64) : Binary :=
  let exponent := ((bits >>> 52) &&& 0x7FF).toNat
  let fraction := (bits &&& 0xFFFFFFFFFFFFF).toNat
  if exponent = 0 then ⟨fraction, -1074, false⟩
  else ⟨Nat.pow 2 52 + fraction, (exponent : Int) - 1075, fraction = 0 && 1 < exponent⟩

def compareScaled (a : Nat) (i : Int) (b : Nat) (j : Int) : Ordering :=
  compare (a * Nat.pow 10 i.toNat * Nat.pow 2 (-j).toNat)
    (b * Nat.pow 2 j.toNat * Nat.pow 10 (-i).toNat)

/-- Whether a number is the nearest to a decimal; halfway between two the even one is. -/
def readsBack (x : Binary) (d : Decimal) : Bool :=
  let below := 4 * x.significand - (if x.narrowBelow then 1 else 2)
  let above := 4 * x.significand + 2
  let withEnds := x.significand % 2 = 0
  let lower := compareScaled d.digits d.scale below (x.exponent - 2)
  let upper := compareScaled d.digits d.scale above (x.exponent - 2)
  (lower = .gt || (withEnds && lower = .eq)) && (upper = .lt || (withEnds && upper = .eq))

/-- The number of digits before the point, counted down where zeros follow the point. -/
def magnitude (x : Binary) : Int :=
  let places := (List.range 650).map fun i : Nat => (i : Int) - 330
  (places.find? fun k => compareScaled 1 k x.significand x.exponent = .gt).getD 0

/-- The decimals of a scale next to a number on either side, the nearer one first. -/
def neighbors (x : Binary) (scale : Int) : List Decimal :=
  let above := x.significand * Nat.pow 2 x.exponent.toNat * Nat.pow 10 (-scale).toNat
  let below := Nat.pow 2 (-x.exponent).toNat * Nat.pow 10 scale.toNat
  let n := above / below
  let nearer := compare (2 * above) ((2 * n + 1) * below)
  if nearer = .lt ∨ (nearer = .eq ∧ n % 2 = 0) then [⟨n, scale⟩, ⟨n + 1, scale⟩]
  else [⟨n + 1, scale⟩, ⟨n, scale⟩]

def mostDigits : Nat := 17

def shortest (x : Binary) : Decimal :=
  let k := magnitude x
  let candidates := (List.range mostDigits).flatMap fun n => neighbors x (k - (n + 1 : Nat))
  (candidates.find? x.readsBack).getD ⟨0, 0⟩

end Binary

namespace Decimal

def parts (d : Decimal) : Text × Int :=
  let all := Text.decimal d.digits
  ((all.reverse.dropWhile fun (c : CodePoint) => c = '0').reverse, all.length + d.scale)

def exponentText (e : Int) : Text :=
  let digits := Text.decimal e.natAbs
  CodePoint.ofChar (if e < 0 then '-' else '+') ::
    List.replicate (2 - digits.length) (CodePoint.ofChar '0') ++ digits

def writtenBelowOne (digits : Text) (point : Int) : Text :=
  (['0', '.'] : Text) ++ List.replicate (-point).toNat (CodePoint.ofChar '0') ++ digits

/-- A number from one on in positional notation, with one digit at least after the point. -/
def writtenFromOne (digits : Text) (point : Nat) : Text :=
  let whole := digits.take point ++
    List.replicate (point - digits.length) (CodePoint.ofChar '0')
  let rest := digits.drop point
  whole ++ (['.'] : Text) ++ (if rest.isEmpty then (['0'] : Text) else rest)

def writtenWithExponent (digits : Text) (point : Int) : Text :=
  let rest := digits.drop 1
  digits.take 1 ++ (if rest.isEmpty then [] else CodePoint.ofChar '.' :: rest) ++
    (['e'] : Text) ++ exponentText (point - 1)

/-- A decimal in positional notation from 0.0001 to sixteen digits, else with an exponent. -/
def written (d : Decimal) : Text :=
  let (digits, point) := d.parts
  if point ≤ -4 || 16 < point then writtenWithExponent digits point
  else if point ≤ 0 then writtenBelowOne digits point
  else writtenFromOne digits point.toNat

end Decimal

/--
A number with a fraction in writing: the fewest digits that read back. The exponent of all ones is
kept for the infinities, and for what is no number.
-/
def fractionText (x : Float) : Text :=
  let bits := x.toBits
  let sign : Text := if bits >>> 63 = 0 then [] else ['-']
  if (bits >>> 52) &&& 0x7FF = 0x7FF then
    if bits &&& 0xFFFFFFFFFFFFF = 0 then sign ++ ("inf" : Text) else "nan"
  else
    let x := Binary.ofBits bits
    sign ++ (if x.significand = 0 then ("0.0" : Text) else x.shortest.written)

end ShellPrompt
