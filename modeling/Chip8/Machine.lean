import Chip8.CallStack
import Chip8.Generator
import Chip8.Key
import Chip8.Memory
import Chip8.Opcode
import Chip8.Registers
import Chip8.Screen
import Chip8.Timers

/-!
# The machine

All that a running program can see or change, together with the two requests of the host,
to stop and to pause, and two records of the run: the number of instructions executed and
the trace of the instruction fetched last.
-/

namespace Chip8

/-- The requests of the host. -/
structure Control where
  stopped : Bool := false
  paused : Bool := false
deriving DecidableEq

/-- The state of a machine. -/
structure Machine where
  memory : Memory
  registers : Registers
  /-- The index register `I`. -/
  index : UInt16
  /-- The program counter. -/
  pc : UInt16
  stack : CallStack
  screen : Screen
  timers : Timers
  keypad : Keypad
  generator : Generator
  /-- How many instructions were executed, up to `maxCycles`. -/
  cycles : Nat
  /-- The word fetched last, and its mnemonic if it is an instruction. -/
  trace : String
  control : Control
deriving DecidableEq

namespace Machine

/-- The count at which the cycle counter stays. -/
def maxCycles : Nat := 2147483647

/-- A fresh machine with a given generator. -/
def fresh (generator : Generator) : Machine where
  memory := .fresh
  registers := .zero
  index := 0
  pc := UInt16.ofNat Memory.programStart
  stack := {}
  screen := .blank
  timers := {}
  keypad := {}
  generator := generator
  cycles := 0
  trace := ""
  control := {}

/-- Puts the machine at the start of its program. Memory, generator, keypad and the requests
of the host stay as they are, and no timer signals. -/
def reset (m : Machine) : Machine :=
  { m with
    registers := .zero
    index := 0
    pc := UInt16.ofNat Memory.programStart
    stack := {}
    screen := .blank
    timers := {}
    cycles := 0
    trace := "" }

/-! ## Parts -/

def reg (m : Machine) (r : Register) : UInt8 :=
  m.registers.get r

def setReg (m : Machine) (r : Register) (value : UInt8) : Machine :=
  { m with registers := m.registers.set r value }

/-- Sets the cycle counter, up to `maxCycles`. -/
def setCycles (m : Machine) (cycles : Nat) : Machine :=
  { m with cycles := min cycles maxCycles }

/-! ## Events from outside -/

def tick (m : Machine) : Machine × List Signal :=
  let (timers, signals) := m.timers.tick
  ({ m with timers := timers }, signals)

def press (m : Machine) (k : Key) : Machine :=
  { m with keypad := m.keypad.press k }

/-- Lets go of every key. -/
def release (m : Machine) : Machine :=
  { m with keypad := m.keypad.release }

def releaseKey (m : Machine) (k : Key) : Machine :=
  { m with keypad := m.keypad.releaseKey k }

def stop (m : Machine) : Machine :=
  { m with control := { m.control with stopped := true } }

def clearStop (m : Machine) : Machine :=
  { m with control := { m.control with stopped := false } }

def pause (m : Machine) : Machine :=
  { m with control := { m.control with paused := true } }

def resume (m : Machine) : Machine :=
  { m with control := { m.control with paused := false } }

end Machine

end Chip8
