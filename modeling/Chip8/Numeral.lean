/-!
# Numerals

How natural numbers are written: decimal without leading zeros, and uppercase hexadecimal
padded with zeros to a least width. A number that needs more digits than the width keeps
them all.
-/

namespace Chip8.Numeral

/-- The decimal digits of `n`, without leading zeros. -/
def decimal (n : Nat) : List Char :=
  Nat.toDigits 10 n

/-- The uppercase hexadecimal digits of `n`, without leading zeros. -/
def hexDigits (n : Nat) : List Char :=
  (Nat.toDigits 16 n).map Char.toUpper

/-- The uppercase hexadecimal digits of `n`, padded with zeros to at least `width`. -/
def hex (width n : Nat) : List Char :=
  List.replicate (width - (hexDigits n).length) '0' ++ hexDigits n

/-- The text of `n` in decimal. -/
def decimalText (n : Nat) : String :=
  String.ofList (decimal n)

/-- The text of `n` in hexadecimal, at least `width` digits wide. -/
def hexText (width n : Nat) : String :=
  String.ofList (hex width n)

/-- A memory address as messages show it: `0x` and at least three hexadecimal digits. -/
def addressText (address : Nat) : String :=
  "0x" ++ hexText 3 address

end Chip8.Numeral
