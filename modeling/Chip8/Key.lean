import Chip8.Numeral

/-!
# Keys

The keypad has sixteen keys, named by the hexadecimal digits. One key at most is held:
pressing a key replaces the one held before.
-/

namespace Chip8

/-- A key of the keypad, `0` to `F`. -/
structure Key where
  code : Fin 16
deriving DecidableEq

namespace Key

/-- The key with a given code, if there is one. -/
def ofCode? (code : Nat) : Option Key :=
  if h : code < 16 then some ⟨⟨code, h⟩⟩ else none

/-- The name of a key: one uppercase hexadecimal digit. -/
def name (k : Key) : String :=
  Numeral.hexText 1 k.code

/-- The key named by a hexadecimal digit of either case. -/
def ofChar? (c : Char) : Option Key :=
  if '0' ≤ c ∧ c ≤ '9' then ofCode? (c.toNat - '0'.toNat)
  else if 'A' ≤ c ∧ c ≤ 'F' then ofCode? (c.toNat - 'A'.toNat + 10)
  else if 'a' ≤ c ∧ c ≤ 'f' then ofCode? (c.toNat - 'a'.toNat + 10)
  else none

/-- The key with a given name: exactly one hexadecimal digit of either case. -/
def ofName? (name : List Char) : Option Key :=
  match name with
  | [c] => ofChar? c
  | _ => none

end Key

/-- Text that names no key. -/
structure UnknownKey where
  name : List Char
deriving DecidableEq

namespace UnknownKey

def message (e : UnknownKey) : String :=
  "unknown key name: '" ++ String.ofList e.name ++ "'"

end UnknownKey

/-! ## The keypad -/

/-- The keypad: the key that is held, if any. -/
structure Keypad where
  held : Option Key := none
deriving DecidableEq

namespace Keypad

/-- The code that stands for no key. -/
def noKey : Nat := 255

/-- Holds a key in place of the one held before. -/
def press (_pad : Keypad) (k : Key) : Keypad :=
  ⟨some k⟩

def release (_pad : Keypad) : Keypad :=
  ⟨none⟩

/-- Lets go of a key, which has an effect only if it is the one held. -/
def releaseKey (pad : Keypad) (k : Key) : Keypad :=
  if pad.held = some k then ⟨none⟩ else pad

/-- The code of the key held, or `noKey`. -/
def code (pad : Keypad) : Nat :=
  match pad.held with
  | some k => k.code
  | none => noKey

end Keypad

end Chip8
