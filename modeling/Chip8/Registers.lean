import Chip8.Register

/-!
# The register file

The values of `V0` to `VF`. Registers can also be named by a plain index, which is refused
past the last one.
-/

namespace Chip8

/-- An index that names no register. -/
structure RegisterError where
  index : Nat
deriving DecidableEq

namespace RegisterError

def message (e : RegisterError) : String :=
  "no such register: V" ++ Numeral.hexText 1 e.index

end RegisterError

/-- The values of the registers. -/
structure Registers where
  values : Vector UInt8 16
deriving DecidableEq

namespace Registers

def zero : Registers :=
  ⟨.replicate 16 0⟩

def get (regs : Registers) (r : Register) : UInt8 :=
  regs.values[r.index]

def set (regs : Registers) (r : Register) (value : UInt8) : Registers :=
  ⟨regs.values.set r.index value⟩

/-- Adds to a register, modulo 256, without touching the flag. -/
def add (regs : Registers) (r : Register) (value : UInt8) : Registers :=
  regs.set r (regs.get r + value)

/-- The value of the register with an index. -/
def peek (regs : Registers) (index : Nat) : Except RegisterError UInt8 :=
  if h : index < 16 then .ok (regs.get ⟨⟨index, h⟩⟩) else .error ⟨index⟩

/-- Sets the register with an index. -/
def poke (regs : Registers) (index : Nat) (value : UInt8) : Except RegisterError Registers :=
  if h : index < 16 then .ok (regs.set ⟨⟨index, h⟩⟩ value) else .error ⟨index⟩

def toList (regs : Registers) : List UInt8 :=
  regs.values.toList

/-- One register as a name and two hexadecimal digits. -/
def entry (regs : Registers) (i : Fin 16) : String :=
  Register.name ⟨i⟩ ++ ": " ++ Numeral.hexText 2 (regs.get ⟨i⟩).toNat

/-- The registers as two lines of eight. -/
def text (regs : Registers) : String :=
  let line (is : List (Fin 16)) := "   ".intercalate (is.map regs.entry)
  line ((List.finRange 16).take 8) ++ "\n" ++ line ((List.finRange 16).drop 8)

end Registers

end Chip8
