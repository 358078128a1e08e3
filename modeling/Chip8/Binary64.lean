/-!
# Floating-point numbers, exactly

A floating-point number of 64 bits read off its bits: not a number, an infinity, or a
mantissa times a power of two.
-/

namespace Chip8

/-- The exact reading of a floating-point number. -/
inductive Binary64 where
  | nan
  | infinite (negative : Bool)
  /-- The number `mantissa * 2 ^ exponent`, or its negation. -/
  | finite (negative : Bool) (mantissa : Nat) (exponent : Int)
deriving DecidableEq

namespace Binary64

/-- The mantissa of a number with the leading bit only. -/
def leadingBit : Nat := 0x10000000000000

/-- The exponent of the smallest numbers. -/
def leastExponent : Int := -1074

/-- Reads a sign bit, an exponent field and a fraction field. -/
def ofFields (negative : Bool) (exponent fraction : Nat) : Binary64 :=
  if exponent = 2047 then (if fraction = 0 then infinite negative else nan)
  else if exponent = 0 then finite negative fraction leastExponent
  else finite negative (leadingBit + fraction) (leastExponent + exponent - 1)

def ofBits (bits : Nat) : Binary64 :=
  ofFields (0x8000000000000000 ≤ bits) (bits / leadingBit % 0x800) (bits % leadingBit)

def ofFloat (x : Float) : Binary64 :=
  ofBits x.toBits.toNat

def value? : Binary64 → Option Rat
  | finite negative mantissa exponent =>
    let signed : Int := if negative then -mantissa else mantissa
    some (mkRat (signed * Int.pow 2 exponent.toNat) (Nat.pow 2 (-exponent).toNat))
  | _ => none

/-- The bits of the number `mantissa / 2 ^ places`, for a mantissa below `2 ^ 53` and at most 52
places. The mantissa is moved up until its leading bit is in place. -/
def quotientBits (mantissa places : Nat) : Nat :=
  if mantissa = 0 then 0
  else
    let up := 52 - Nat.log2 mantissa
    (leastExponent.natAbs - places - up) * leadingBit + mantissa * Nat.pow 2 up

/-- The floating-point number that is equal to a quotient as above. -/
def toFloat (q : Rat) : Float :=
  Float.ofBits (UInt64.ofNat (quotientBits q.num.toNat (Nat.log2 q.den)))

end Binary64

end Chip8
