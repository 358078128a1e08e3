import Chip8.Binary64

/-!
# Shortest decimals

The text of a floating-point number has the fewest digits that read back as the same number,
and among those the nearest ones; of two that are equally near the greater is taken. It is
always positional, without an exponent and without a point after a whole number.

**How they are found.** The real numbers that read back as a given number form an interval
around it, with its ends if the mantissa is even. On a grid of powers of ten the only
candidates are the two neighbours of the number. The grids are tried from coarse to fine.
-/

namespace Chip8.Decimal

/-- The positive number `digits * 10 ^ exponent`. -/
structure Scaled where
  digits : Nat
  exponent : Int
deriving DecidableEq

/-- A number with the ends of its interval, as numerators over one denominator. -/
structure Rounding where
  lower : Nat
  value : Nat
  upper : Nat
  denominator : Nat
  /-- Whether the ends belong to the interval. -/
  closed : Bool
deriving DecidableEq

namespace Rounding

/-- The interval of `mantissa * 2 ^ exponent`. Below a power of two the gap is half as wide
as above it. -/
def ofBinary (mantissa : Nat) (exponent : Int) : Rounding :=
  let below := if mantissa = Binary64.leadingBit ∧ Binary64.leastExponent < exponent then 1 else 2
  let up := Nat.pow 2 (exponent - 2).toNat
  { lower := (4 * mantissa - below) * up
    value := 4 * mantissa * up
    upper := (4 * mantissa + 2) * up
    denominator := Nat.pow 2 (2 - exponent).toNat
    closed := mantissa % 2 = 0 }

/-- The interval in units of `10 ^ exponent`. -/
def inUnits (r : Rounding) (exponent : Int) : Rounding :=
  let up := Nat.pow 10 (-exponent).toNat
  { r with
    lower := r.lower * up
    value := r.value * up
    upper := r.upper * up
    denominator := r.denominator * Nat.pow 10 exponent.toNat }

/-- Whether a whole number lies in the interval. -/
def holds (r : Rounding) (n : Nat) : Bool :=
  let scaled := n * r.denominator
  if r.closed then r.lower ≤ scaled && scaled ≤ r.upper
  else r.lower < scaled && scaled < r.upper

/-- The exponent of the leading decimal digit of the number. -/
def magnitude (r : Rounding) : Int :=
  if r.denominator ≤ r.value then
    ((Nat.toDigits 10 (r.value / r.denominator)).length : Int) - 1
  else -((Nat.toDigits 10 ((r.denominator - 1) / r.value)).length : Int)

/-- The better of the two whole numbers next to the number, if one lies in the interval. -/
def candidate? (r : Rounding) : Option Nat :=
  let low := r.value / r.denominator
  let nearLow := 2 * (r.value % r.denominator) < r.denominator
  match r.holds low, r.holds (low + 1) with
  | true, true => some (if nearLow then low else low + 1)
  | true, false => some low
  | false, true => some (low + 1)
  | false, false => none

/-- The number of the fewest digits in the interval. Seventeen digits always suffice. -/
def shortest (r : Rounding) : Scaled :=
  let attempt (k : Nat) : Option Scaled :=
    let exponent := r.magnitude - k
    (r.inUnits exponent).candidate?.map fun n => ⟨n, exponent⟩
  ((List.range 18).findSome? attempt).getD ⟨0, 0⟩

end Rounding

/-! ## Text -/

namespace Scaled

/-- Digits with a point before the last `places` of them and no zeros at the end. -/
def pointText (digits : List Char) (places : Nat) : List Char :=
  let padded := List.replicate (places + 1 - digits.length) '0' ++ digits
  let whole := padded.take (padded.length - places)
  let fraction := (padded.drop (padded.length - places)).reverse.dropWhile (· == '0')
  if fraction = [] then whole else whole ++ '.' :: fraction.reverse

def text (s : Scaled) : List Char :=
  let digits := Nat.toDigits 10 s.digits
  if 0 ≤ s.exponent then digits ++ List.replicate s.exponent.toNat '0'
  else pointText digits (-s.exponent).toNat

end Scaled

def signed (negative : Bool) (text : String) : String :=
  if negative then "-" ++ text else text

def binaryText : Binary64 → String
  | .nan => "NaN"
  | .infinite negative => signed negative "inf"
  | .finite negative mantissa exponent =>
    signed negative <|
      if mantissa = 0 then "0"
      else String.ofList (Rounding.ofBinary mantissa exponent).shortest.text

def text (x : Float) : String :=
  binaryText (.ofFloat x)

end Chip8.Decimal
