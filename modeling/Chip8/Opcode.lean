import Chip8.Register

/-!
# Opcodes

A program is a sequence of 16-bit words, stored high byte first. A word is read as four
nibbles: the first selects the family, and the others are registers, a byte, a row count or
a 12-bit address, depending on the family.
-/

namespace Chip8

/-- A 16-bit instruction word. -/
structure Opcode where
  word : UInt16
deriving DecidableEq

namespace Opcode

/-- The word stored as a high and a low byte. -/
def ofBytes (high low : UInt8) : Opcode :=
  ⟨UInt16.ofNat (high.toNat * 256 + low.toNat)⟩

/-- The top nibble, which selects the instruction family. -/
def family (op : Opcode) : Nat :=
  op.word.toNat / 4096

/-- The register in the second nibble. -/
def x (op : Opcode) : Register :=
  .ofNibble (op.word.toNat / 256)

/-- The register in the third nibble. -/
def y (op : Opcode) : Register :=
  .ofNibble (op.word.toNat / 16)

/-- The lowest nibble. -/
def nibble (op : Opcode) : Nat :=
  op.word.toNat % 16

/-- The low byte. -/
def byte (op : Opcode) : Nat :=
  op.word.toNat % 256

/-- The lowest twelve bits. -/
def address (op : Opcode) : Nat :=
  op.word.toNat % 4096

/-- The word as `#` and four hexadecimal digits. -/
def text (op : Opcode) : String :=
  "#" ++ Numeral.hexText 4 op.word.toNat

end Opcode

end Chip8
