import Chip8.Instruction

/-!
# Encoding and decoding

`Opcode.decode` reads an instruction off a word and `Instruction.encode` assembles the word
from the fields. Every word of a family that has no meaning is refused: family `0` held
calls of machine code routines, which this machine does not have.
-/

namespace Chip8

/-! ## Decoding -/

/-- Why a word is no instruction. -/
inductive DecodeError where
  /-- No instruction has this form. -/
  | unknown (op : Opcode)
  /-- The word calls a machine code routine. -/
  | machineRoutine (op : Opcode)
deriving DecidableEq

namespace DecodeError

/-- The text of a decoding error. -/
def message : DecodeError → String
  | unknown op => "unknown opcode: " ++ op.text
  | machineRoutine op =>
    "unknown opcode: " ++ op.text ++ " (machine code routines are not supported)"

end DecodeError

namespace Opcode

/-- The arithmetic instruction between two registers that the lowest nibble selects. -/
def decodeArithmetic (op : Opcode) : Except DecodeError Instruction :=
  match op.nibble with
  | 0x0 => .ok (.copy op.x op.y)
  | 0x1 => .ok (.or op.x op.y)
  | 0x2 => .ok (.and op.x op.y)
  | 0x3 => .ok (.xor op.x op.y)
  | 0x4 => .ok (.add op.x op.y)
  | 0x5 => .ok (.sub op.x op.y)
  | 0x6 => .ok (.shiftRight op.x)
  | 0x7 => .ok (.subFrom op.x op.y)
  | 0xE => .ok (.shiftLeft op.x)
  | _ => .error (.unknown op)

/-- The instruction on a key that the low byte selects. -/
def decodeKey (op : Opcode) : Except DecodeError Instruction :=
  match op.byte with
  | 0x9E => .ok (.skipIfKey op.x)
  | 0xA1 => .ok (.skipUnlessKey op.x)
  | _ => .error (.unknown op)

/-- The instruction on timers, keys and memory that the low byte selects. -/
def decodeDevice (op : Opcode) : Except DecodeError Instruction :=
  match op.byte with
  | 0x07 => .ok (.getDelay op.x)
  | 0x0A => .ok (.awaitKey op.x)
  | 0x15 => .ok (.setDelay op.x)
  | 0x18 => .ok (.setSound op.x)
  | 0x1E => .ok (.addIndex op.x)
  | 0x29 => .ok (.glyph op.x)
  | 0x33 => .ok (.storeDecimal op.x)
  | 0x55 => .ok (.storeRegisters op.x)
  | 0x65 => .ok (.loadRegisters op.x)
  | _ => .error (.unknown op)

/-- The instruction that a word stands for. -/
def decode (op : Opcode) : Except DecodeError Instruction :=
  let address := UInt16.ofNat op.address
  let byte := UInt8.ofNat op.byte
  match op.family with
  | 0x0 =>
    if op.word = 0x00E0 then .ok .clear
    else if op.word = 0x00EE then .ok .ret
    else .error (.machineRoutine op)
  | 0x1 => .ok (.jump address)
  | 0x2 => .ok (.call address)
  | 0x3 => .ok (.skipIfByte op.x byte)
  | 0x4 => .ok (.skipUnlessByte op.x byte)
  | 0x5 => if op.nibble = 0 then .ok (.skipIfSame op.x op.y) else .error (.unknown op)
  | 0x6 => .ok (.setByte op.x byte)
  | 0x7 => .ok (.addByte op.x byte)
  | 0x8 => op.decodeArithmetic
  | 0x9 => if op.nibble = 0 then .ok (.skipUnlessSame op.x op.y) else .error (.unknown op)
  | 0xA => .ok (.setIndex address)
  | 0xB => .ok (.jumpOffset address)
  | 0xC => .ok (.random op.x byte)
  | 0xD => .ok (.draw op.x op.y (UInt8.ofNat op.nibble))
  | 0xE => op.decodeKey
  | _ => op.decodeDevice

end Opcode

/-! ## Encoding -/

namespace Instruction

/-- The word with a family nibble above a 12-bit address. -/
def addressWord (family : Nat) (address : UInt16) : Opcode :=
  ⟨UInt16.ofNat (family * 4096 + address.toNat)⟩

/-- The word with a family nibble, a register and a byte. -/
def byteWord (family : Nat) (x : Register) (byte : Nat) : Opcode :=
  ⟨UInt16.ofNat (family * 4096 + x.index * 256 + byte)⟩

/-- The word with a family nibble, two registers and a last nibble. -/
def pairWord (family : Nat) (x y : Register) (nibble : Nat) : Opcode :=
  ⟨UInt16.ofNat (family * 4096 + x.index * 256 + y.index * 16 + nibble)⟩

/-- The word of an instruction whose address is below `0x1000` and whose row count is below
`16`. The unused nibble of the two shifts is zero. -/
def encode : Instruction → Opcode
  | clear => ⟨0x00E0⟩
  | ret => ⟨0x00EE⟩
  | jump a => addressWord 0x1 a
  | call a => addressWord 0x2 a
  | skipIfByte x b => byteWord 0x3 x b.toNat
  | skipUnlessByte x b => byteWord 0x4 x b.toNat
  | skipIfSame x y => pairWord 0x5 x y 0
  | setByte x b => byteWord 0x6 x b.toNat
  | addByte x b => byteWord 0x7 x b.toNat
  | copy x y => pairWord 0x8 x y 0x0
  | or x y => pairWord 0x8 x y 0x1
  | and x y => pairWord 0x8 x y 0x2
  | xor x y => pairWord 0x8 x y 0x3
  | add x y => pairWord 0x8 x y 0x4
  | sub x y => pairWord 0x8 x y 0x5
  | shiftRight x => pairWord 0x8 x .v0 0x6
  | subFrom x y => pairWord 0x8 x y 0x7
  | shiftLeft x => pairWord 0x8 x .v0 0xE
  | skipUnlessSame x y => pairWord 0x9 x y 0
  | setIndex a => addressWord 0xA a
  | jumpOffset a => addressWord 0xB a
  | random x b => byteWord 0xC x b.toNat
  | draw x y n => pairWord 0xD x y n.toNat
  | skipIfKey x => byteWord 0xE x 0x9E
  | skipUnlessKey x => byteWord 0xE x 0xA1
  | getDelay x => byteWord 0xF x 0x07
  | awaitKey x => byteWord 0xF x 0x0A
  | setDelay x => byteWord 0xF x 0x15
  | setSound x => byteWord 0xF x 0x18
  | addIndex x => byteWord 0xF x 0x1E
  | glyph x => byteWord 0xF x 0x29
  | storeDecimal x => byteWord 0xF x 0x33
  | storeRegisters x => byteWord 0xF x 0x55
  | loadRegisters x => byteWord 0xF x 0x65

end Instruction

end Chip8
