/-!
# Shortest decimals

The decimal text of a 32-bit floating point number that takes the fewest digits
and still reads back as the same number.

A finite positive number is `significand * 2 ^ exponent` exactly. The reals that
round to it form an interval around it, with its ends included when the
significand is even. Among the grids of multiples of `10 ^ k` the coarsest one
with a point in that interval gives the fewest digits, and of a grid it is
enough to look at the two points next to the number: if any lies in the
interval, one of these does.

* `Binary32.ofBits` — the parts of a bit pattern.
* `Fraction.shortest` — the coarsest grid that meets the interval.
* `text` — the decimal without exponent, however long.
-/

namespace Raster.Decimal

/-! ## Bit patterns -/

/-- The value of a bit pattern, apart from its sign. -/
inductive Magnitude where
  | nan
  | infinite
  /-- The number `significand * 2 ^ exponent`; `narrow` when the gap to the next
  smaller number is half the gap to the next greater one. -/
  | finite (significand : Nat) (exponent : Int) (narrow : Bool)

/-- A bit pattern taken apart. -/
structure Binary32 where
  negative : Bool
  magnitude : Magnitude

/-- One sign bit, eight exponent bits, 23 bits of the significand. -/
def Binary32.ofBits (bits : UInt32) : Binary32 :=
  let n := bits.toNat
  let stored : Nat := n >>> 23 % 256
  let fraction := n % (1 <<< 23)
  { negative := decide (1 <<< 31 ≤ n)
    magnitude :=
      if stored = 255 then
        if fraction = 0 then .infinite else .nan
      else if stored = 0 then .finite fraction (-149) false
      else .finite (1 <<< 23 + fraction) ((stored : Int) - 150) (fraction == 0 && stored != 1) }

/-! ## Grids of decimals -/

/-- A positive number and the interval around it, over one denominator. -/
structure Fraction where
  value : Nat
  low : Nat
  high : Nat
  denominator : Nat
  closed : Bool

/-- The interval of a finite number, in quarters of its last place. -/
def Fraction.ofFinite (significand : Nat) (exponent : Int) (narrow : Bool) : Fraction :=
  let up := 1 <<< exponent.toNat
  { value := 4 * significand * up
    low := (4 * significand - if narrow then 1 else 2) * up
    high := (4 * significand + 2) * up
    denominator := 4 <<< (-exponent).toNat
    closed := significand % 2 == 0 }

namespace Fraction

/-- The same interval in units of `10 ^ k`. -/
def scaled (f : Fraction) (k : Int) : Fraction :=
  let up := Nat.pow 10 (-k).toNat
  { f with
    value := f.value * up
    low := f.low * up
    high := f.high * up
    denominator := f.denominator * Nat.pow 10 k.toNat }

/-- The whole number `d` lies in the interval. -/
def holds (f : Fraction) (d : Nat) : Bool :=
  if f.closed then decide (f.low ≤ d * f.denominator) && decide (d * f.denominator ≤ f.high)
  else decide (f.low < d * f.denominator) && decide (d * f.denominator < f.high)

/-- The whole number next to the value that lies in the interval; the nearer one
if both do, and the greater one on a tie. -/
def neighbour? (f : Fraction) : Option Nat :=
  let below := f.value / f.denominator
  let above := below + 1
  match f.holds below, f.holds above with
  | true, true =>
    if 2 * f.value < (below + above) * f.denominator then some below else some above
  | true, false => some below
  | false, true => some above
  | false, false => none

/-- The digits and the power of ten of the coarsest grid with a hit, from
`10 ^ (k + steps)` down to `10 ^ k`. -/
def search (f : Fraction) (k : Int) : (steps : Nat) → Nat × Int
  | 0 => ((f.scaled k).value / (f.scaled k).denominator, k)
  | steps + 1 =>
    match (f.scaled (k + steps + 1)).neighbour? with
    | some digits => (digits, k + steps + 1)
    | none => f.search k steps

/-- The shortest digits and their power of ten. The grid of `10 ^ -46` is finer
than the gap between any two 32-bit numbers, and `10 ^ 39` is above them all. -/
def shortest (f : Fraction) : Nat × Int := f.search (-46) 85

end Fraction

/-! ## Text -/

/-- The number `digits * 10 ^ exponent` written out without an exponent. -/
def positional (digits : Nat) (exponent : Int) : String :=
  let shown := Nat.toDigits 10 digits
  let places := (-exponent).toNat
  if 0 ≤ exponent then String.ofList (shown ++ List.replicate exponent.toNat '0')
  else
    let padded := List.replicate (places + 1 - shown.length) '0' ++ shown
    let whole := padded.length - places
    String.ofList (padded.take whole ++ '.' :: padded.drop whole)

/-- The decimal text of a bit pattern. -/
def text (bits : UInt32) : String :=
  let parts := Binary32.ofBits bits
  let sign := if parts.negative then "-" else ""
  match parts.magnitude with
  | .nan => "NaN"
  | .infinite => sign ++ "inf"
  | .finite 0 _ _ => sign ++ "0"
  | .finite significand exponent narrow =>
    let (digits, power) := (Fraction.ofFinite significand exponent narrow).shortest
    sign ++ positional digits power

end Raster.Decimal
