import Chip8.Opcode

/-!
# Instructions

The 34 instructions that the machine executes. Fields are wider than an opcode can fill:
addresses have sixteen bits and row counts eight, so an instruction can also be built by
hand.
-/

namespace Chip8

/-- An instruction with its operands. -/
inductive Instruction where
  /-- Clear the screen. -/
  | clear
  /-- Return from a subroutine. -/
  | ret
  /-- Continue at an address. -/
  | jump (address : UInt16)
  /-- Call the subroutine at an address. -/
  | call (address : UInt16)
  /-- Skip the next instruction if `Vx` equals a byte. -/
  | skipIfByte (x : Register) (byte : UInt8)
  /-- Skip the next instruction unless `Vx` equals a byte. -/
  | skipUnlessByte (x : Register) (byte : UInt8)
  /-- Skip the next instruction if `Vx` equals `Vy`. -/
  | skipIfSame (x y : Register)
  /-- Set `Vx` to a byte. -/
  | setByte (x : Register) (byte : UInt8)
  /-- Add a byte to `Vx`, without a flag. -/
  | addByte (x : Register) (byte : UInt8)
  /-- Set `Vx` to `Vy`. -/
  | copy (x y : Register)
  /-- Set `Vx` to the bitwise or of `Vx` and `Vy`. -/
  | or (x y : Register)
  /-- Set `Vx` to the bitwise and of `Vx` and `Vy`. -/
  | and (x y : Register)
  /-- Set `Vx` to the bitwise exclusive or of `Vx` and `Vy`. -/
  | xor (x y : Register)
  /-- Add `Vy` to `Vx`; the flag is the carry. -/
  | add (x y : Register)
  /-- Subtract `Vy` from `Vx`; the flag is set when nothing is borrowed. -/
  | sub (x y : Register)
  /-- Shift `Vx` right by one; the flag is the bit shifted out. -/
  | shiftRight (x : Register)
  /-- Set `Vx` to `Vy` less `Vx`; the flag is set when nothing is borrowed. -/
  | subFrom (x y : Register)
  /-- Shift `Vx` left by one; the flag is the bit shifted out. -/
  | shiftLeft (x : Register)
  /-- Skip the next instruction unless `Vx` equals `Vy`. -/
  | skipUnlessSame (x y : Register)
  /-- Set the index register to an address. -/
  | setIndex (address : UInt16)
  /-- Continue at an address plus `V0`. -/
  | jumpOffset (address : UInt16)
  /-- Set `Vx` to a random byte masked by a byte. -/
  | random (x : Register) (byte : UInt8)
  /-- Draw a sprite of `rows` rows from the index register at `(Vx, Vy)`. -/
  | draw (x y : Register) (rows : UInt8)
  /-- Skip the next instruction if the key in `Vx` is pressed. -/
  | skipIfKey (x : Register)
  /-- Skip the next instruction unless the key in `Vx` is pressed. -/
  | skipUnlessKey (x : Register)
  /-- Set `Vx` to the delay timer. -/
  | getDelay (x : Register)
  /-- Wait for a key and set `Vx` to its code. -/
  | awaitKey (x : Register)
  /-- Set the delay timer to `Vx`. -/
  | setDelay (x : Register)
  /-- Set the sound timer to `Vx`. -/
  | setSound (x : Register)
  /-- Add `Vx` to the index register. -/
  | addIndex (x : Register)
  /-- Point the index register at the glyph of the digit in `Vx`. -/
  | glyph (x : Register)
  /-- Store the three decimal digits of `Vx` from the index register on. -/
  | storeDecimal (x : Register)
  /-- Store `V0` to `Vx` from the index register on. -/
  | storeRegisters (x : Register)
  /-- Load `V0` to `Vx` from the index register on. -/
  | loadRegisters (x : Register)
deriving DecidableEq

end Chip8
