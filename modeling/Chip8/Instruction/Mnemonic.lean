import Chip8.Instruction

/-!
# Mnemonics

The assembly text of an instruction. Addresses have at least three hexadecimal digits and
bytes two, both after `#`; a row count is decimal.
-/

namespace Chip8.Instruction

/-- An address operand. -/
def addressOperand (address : UInt16) : String :=
  "#" ++ Numeral.hexText 3 address.toNat

/-- A byte operand. -/
def byteOperand (byte : UInt8) : String :=
  "#" ++ Numeral.hexText 2 byte.toNat

/-- Two operands, separated by a comma. -/
def pair (first second : String) : String :=
  first ++ ", " ++ second

/-- The assembly text of an instruction. -/
def mnemonic : Instruction → String
  | clear => "CLS"
  | ret => "RET"
  | jump a => "JP " ++ addressOperand a
  | call a => "CALL " ++ addressOperand a
  | skipIfByte x b => "SE " ++ pair x.name (byteOperand b)
  | skipUnlessByte x b => "SNE " ++ pair x.name (byteOperand b)
  | skipIfSame x y => "SE " ++ pair x.name y.name
  | setByte x b => "LD " ++ pair x.name (byteOperand b)
  | addByte x b => "ADD " ++ pair x.name (byteOperand b)
  | copy x y => "LD " ++ pair x.name y.name
  | or x y => "OR " ++ pair x.name y.name
  | and x y => "AND " ++ pair x.name y.name
  | xor x y => "XOR " ++ pair x.name y.name
  | add x y => "ADD " ++ pair x.name y.name
  | sub x y => "SUB " ++ pair x.name y.name
  | shiftRight x => "SHR " ++ x.name
  | subFrom x y => "SUBN " ++ pair x.name y.name
  | shiftLeft x => "SHL " ++ x.name
  | skipUnlessSame x y => "SNE " ++ pair x.name y.name
  | setIndex a => "LD " ++ pair "I" (addressOperand a)
  | jumpOffset a => "JP " ++ pair "V0" (addressOperand a)
  | random x b => "RND " ++ pair x.name (byteOperand b)
  | draw x y n => "DRW " ++ pair x.name (pair y.name (Numeral.decimalText n.toNat))
  | skipIfKey x => "SKP " ++ x.name
  | skipUnlessKey x => "SKNP " ++ x.name
  | getDelay x => "LD " ++ pair x.name "DT"
  | awaitKey x => "LD " ++ pair x.name "K"
  | setDelay x => "LD " ++ pair "DT" x.name
  | setSound x => "LD " ++ pair "ST" x.name
  | addIndex x => "ADD " ++ pair "I" x.name
  | glyph x => "LD " ++ pair "F" x.name
  | storeDecimal x => "LD " ++ pair "B" x.name
  | storeRegisters x => "LD " ++ pair "[I]" x.name
  | loadRegisters x => "LD " ++ pair x.name "[I]"

end Chip8.Instruction
