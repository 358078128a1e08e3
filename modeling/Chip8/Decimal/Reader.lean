import Chip8.Numeral

/-!
# Reading floating-point numbers

A number is an optional sign and then the name of a special number, in either case, or
digits with at most one point and at most one exponent. There must be a digit before the
exponent and one in it. The value is the nearest floating-point number.
-/

namespace Chip8.Decimal

/-- Why a text is no number. -/
inductive ReadError where
  | empty
  | invalid
deriving DecidableEq

namespace ReadError

def message : ReadError → String
  | empty => "cannot parse float from empty string"
  | invalid => "invalid float literal"

end ReadError

/-- The value of a run of digits. -/
def digitsValue (digits : List Char) : Nat :=
  Nat.ofDigitChars 10 digits 0

/-- Reads an optional sign: whether it is a minus, and the text after it. -/
def readSign : List Char → Bool × List Char
  | '-' :: rest => (true, rest)
  | '+' :: rest => (false, rest)
  | text => (false, text)

/-- Reads the part from the exponent mark on; without one the exponent is zero. -/
def readExponent : List Char → Option Int
  | [] => some 0
  | c :: rest =>
    let (negative, digits) := readSign rest
    if (c = 'e' ∨ c = 'E') ∧ digits ≠ [] ∧ digits.all Char.isDigit then
      some (if negative then -digitsValue digits else digitsValue digits)
    else none

/-- Reads digits, a point and digits, and then an exponent: the number is the first result
times ten to the second. -/
def readScaled (text : List Char) : Option (Nat × Int) :=
  let whole := text.takeWhile Char.isDigit
  let rest := text.dropWhile Char.isDigit
  let (fraction, rest) := match rest with
    | '.' :: rest => (rest.takeWhile Char.isDigit, rest.dropWhile Char.isDigit)
    | rest => ([], rest)
  if whole = [] ∧ fraction = [] then none
  else (readExponent rest).map fun exponent =>
    (digitsValue (whole ++ fraction), exponent - fraction.length)

/-- The nearest floating-point number to `digits * 10 ^ exponent`. Far outside the range of
floating-point numbers the exponent alone decides. -/
def nearest (digits : Nat) (exponent : Int) : Float :=
  let magnitude := (Nat.toDigits 10 digits).length + exponent
  if digits = 0 ∨ magnitude < -400 then 0
  else if 400 < magnitude then 1 / 0
  else if exponent < 0 then Float.ofScientific digits true exponent.natAbs
  else Float.ofScientific digits false exponent.natAbs

def special? (text : List Char) : Option Float :=
  let name := text.map Char.toLower
  if name = ['n', 'a', 'n'] then some (0 / 0)
  else if name = ['i', 'n', 'f'] ∨ name = "infinity".toList then some (1 / 0)
  else none

def readUnsigned (text : List Char) : Option Float :=
  match special? text with
  | some x => some x
  | none => (readScaled text).map fun (digits, exponent) => nearest digits exponent

def read (text : List Char) : Except ReadError Float :=
  if text = [] then .error .empty
  else
    let (negative, rest) := readSign text
    match readUnsigned rest with
    | some x => .ok (if negative then -x else x)
    | none => .error .invalid

end Chip8.Decimal
