import Chip8.Instruction
import Chip8.Machine

/-!
# Executing an instruction

What each instruction does to the machine. The program counter already points past the
instruction.

**Flags.** Arithmetic writes its result first and `VF` second, so the flag is what remains
when the result register is `VF`. Drawing clears `VF` before it reads the coordinates.

**Failures.** Returning from nothing and running past the end of memory fail. Cells and
registers written before the failing one keep their new values, and `VF` stays cleared when
a sprite cannot be read.
-/

namespace Chip8

/-- How an instruction ended. -/
inductive Status where
  /-- It ran to its end. -/
  | executed
  /-- It waits for a key and is to be run again. -/
  | waiting
deriving DecidableEq

/-- Why an instruction failed. -/
inductive Fault where
  /-- A cell past the end of memory was needed. -/
  | address (cause : AddressError)
  /-- A register was asked for by an index that none has. -/
  | register (cause : RegisterError)
  /-- There is no subroutine to return from. -/
  | stackEmpty
deriving DecidableEq

namespace Fault

def message : Fault → String
  | address e => e.message
  | register e => e.message
  | stackEmpty => "no subroutine to return from"

end Fault

/-- What an instruction or a step leaves behind: the machine, what the timers signalled and
how it ended. -/
structure Outcome (ε : Type) where
  machine : Machine
  signals : List Signal := []
  result : Except ε Status := .ok .executed

namespace Machine

/-- The machine after an instruction that ran to its end. -/
def done (m : Machine) : Outcome Fault :=
  { machine := m }

/-- The machine that an instruction left when it failed. -/
def failed (m : Machine) (fault : Fault) : Outcome Fault :=
  { machine := m, result := .error fault }

/-! ## Control flow -/

/-- Skips the next instruction if a condition holds. -/
def skipIf (m : Machine) (condition : Bool) : Machine :=
  if condition then { m with pc := m.pc + 2 } else m

/-- Whether the key whose code is in a register is held. -/
def holdsKey (m : Machine) (x : Register) : Bool :=
  match m.keypad.held with
  | some k => k.code.val == (m.reg x).toNat
  | none => false

/-- Leaves the innermost subroutine. -/
def returnFromCall (m : Machine) : Outcome Fault :=
  match m.stack.pop? with
  | some (address, stack) => done { m with pc := address, stack := stack }
  | none => m.failed .stackEmpty

/-- Takes the code of the held key; without one, points back at the instruction. -/
def waitForKey (m : Machine) (x : Register) : Outcome Fault :=
  match m.keypad.held with
  | some k => done (m.setReg x (UInt8.ofNat k.code))
  | none => { machine := { m with pc := m.pc - 2 }, result := .ok .waiting }

/-! ## Arithmetic -/

/-- One or zero. -/
def flag (condition : Bool) : UInt8 :=
  if condition then 1 else 0

/-- Writes a result and then its flag. -/
def setWithFlag (m : Machine) (x : Register) (value : UInt8) (condition : Bool) : Machine :=
  (m.setReg x value).setReg .vF (flag condition)

/-- Adds a value to `Vx`; the flag is the carry. -/
def addTo (m : Machine) (x : Register) (value : UInt8) : Machine :=
  m.setWithFlag x (m.reg x + value) (256 ≤ (m.reg x).toNat + value.toNat)

/-- Subtracts a value from `Vx`; the flag tells that nothing was borrowed. -/
def subtractFrom (m : Machine) (x : Register) (value : UInt8) : Machine :=
  m.setWithFlag x (m.reg x - value) (value ≤ m.reg x)

/-- Subtracts `Vx` from a value; the flag tells that nothing was borrowed. -/
def subtractRegister (m : Machine) (x : Register) (value : UInt8) : Machine :=
  m.setWithFlag x (value - m.reg x) (m.reg x ≤ value)

/-- Halves `Vx`; the flag is the bit that falls out. -/
def halve (m : Machine) (x : Register) : Machine :=
  m.setWithFlag x (UInt8.ofNat ((m.reg x).toNat / 2)) ((m.reg x).toNat % 2 = 1)

/-- Doubles `Vx`; the flag is the bit that falls out. -/
def double (m : Machine) (x : Register) : Machine :=
  m.setWithFlag x (m.reg x + m.reg x) (128 ≤ (m.reg x).toNat)

/-! ## Memory and screen -/

/-- Draws a sprite of `rows` rows read from the index register on. -/
def drawSprite (m : Machine) (x y : Register) (rows : UInt8) : Outcome Fault :=
  let m := m.setReg .vF 0
  match m.memory.readMany m.index.toNat rows.toNat with
  | .error e => m.failed (.address e)
  | .ok sprite =>
    let (screen, hit) := m.screen.draw sprite (m.reg x).toNat (m.reg y).toNat
    done { m with screen := screen, registers := m.registers.set .vF (flag hit) }

/-- Stores bytes from the index register on. -/
def store (m : Machine) (bytes : List UInt8) : Outcome Fault :=
  match m.memory.writeMany m.index.toNat bytes with
  | (memory, none) => done { m with memory := memory }
  | (memory, some e) => { m with memory := memory }.failed (.address e)

/-- The decimal digits of a byte: hundreds, tens, ones. -/
def decimalDigits (value : UInt8) : List UInt8 :=
  [UInt8.ofNat (value.toNat / 100), UInt8.ofNat (value.toNat % 100 / 10),
    UInt8.ofNat (value.toNat % 10)]

/-- Copies registers to consecutive cells one by one, up to the first that fails. -/
def storeAll (regs : Registers) (memory : Memory) (address : Nat) :
    List Nat → Memory × Option Fault
  | [] => (memory, none)
  | r :: rest =>
    match regs.peek r with
    | .error e => (memory, some (.register e))
    | .ok byte =>
      match memory.write address byte with
      | .error e => (memory, some (.address e))
      | .ok memory => storeAll regs memory (address + 1) rest

/-- Copies consecutive cells to registers one by one, up to the first that fails. -/
def loadAll (memory : Memory) (regs : Registers) (address : Nat) :
    List Nat → Registers × Option Fault
  | [] => (regs, none)
  | r :: rest =>
    match memory.read address with
    | .error e => (regs, some (.address e))
    | .ok byte =>
      match regs.poke r byte with
      | .error e => (regs, some (.register e))
      | .ok regs => loadAll memory regs (address + 1) rest

/-- Stores `V0` to `Vx` from the index register on. -/
def storeUpTo (m : Machine) (x : Register) : Outcome Fault :=
  match storeAll m.registers m.memory m.index.toNat x.upTo with
  | (memory, none) => done { m with memory := memory }
  | (memory, some fault) => { m with memory := memory }.failed fault

/-- Loads `V0` to `Vx` from the index register on. -/
def loadUpTo (m : Machine) (x : Register) : Outcome Fault :=
  match loadAll m.memory m.registers m.index.toNat x.upTo with
  | (regs, none) => done { m with registers := regs }
  | (regs, some fault) => { m with registers := regs }.failed fault

/-! ## All instructions -/

def perform (m : Machine) : Instruction → Outcome Fault
  | .clear => done { m with screen := .blank }
  | .ret => m.returnFromCall
  | .jump a => done { m with pc := a }
  | .call a => done { m with stack := m.stack.push m.pc, pc := a }
  | .skipIfByte x b => done (m.skipIf (m.reg x == b))
  | .skipUnlessByte x b => done (m.skipIf (m.reg x != b))
  | .skipIfSame x y => done (m.skipIf (m.reg x == m.reg y))
  | .setByte x b => done (m.setReg x b)
  | .addByte x b => done { m with registers := m.registers.add x b }
  | .copy x y => done (m.setReg x (m.reg y))
  | .or x y => done (m.setReg x (m.reg x ||| m.reg y))
  | .and x y => done (m.setReg x (m.reg x &&& m.reg y))
  | .xor x y => done (m.setReg x (m.reg x ^^^ m.reg y))
  | .add x y => done (m.addTo x (m.reg y))
  | .sub x y => done (m.subtractFrom x (m.reg y))
  | .shiftRight x => done (m.halve x)
  | .subFrom x y => done (m.subtractRegister x (m.reg y))
  | .shiftLeft x => done (m.double x)
  | .skipUnlessSame x y => done (m.skipIf (m.reg x != m.reg y))
  | .setIndex a => done { m with index := a }
  | .jumpOffset a => done { m with pc := a + (m.reg .v0).toUInt16 }
  | .random x b =>
    let (byte, generator) := m.generator.drawByte
    done ({ m with generator := generator }.setReg x (byte &&& b))
  | .draw x y n => m.drawSprite x y n
  | .skipIfKey x => done (m.skipIf (m.holdsKey x))
  | .skipUnlessKey x => done (m.skipIf (!m.holdsKey x))
  | .getDelay x => done (m.setReg x m.timers.delay)
  | .awaitKey x => m.waitForKey x
  | .setDelay x => done { m with timers := m.timers.setDelay (m.reg x) }
  | .setSound x =>
    let (timers, signals) := m.timers.setSound (m.reg x)
    { machine := { m with timers := timers }, signals := signals }
  | .addIndex x => done { m with index := m.index + (m.reg x).toUInt16 }
  | .glyph x => done { m with index := UInt16.ofNat ((m.reg x).toNat * Glyph.height) }
  | .storeDecimal x => m.store (decimalDigits (m.reg x))
  | .storeRegisters x => m.storeUpTo x
  | .loadRegisters x => m.loadUpTo x

end Machine

end Chip8
