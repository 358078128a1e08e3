import Chip8.Instruction.Code
import Chip8.Instruction.Mnemonic
import Chip8.Machine.Execute

/-!
# One step

A step fetches the word at the program counter, moves the counter past it, decodes the word
and executes the instruction.

* A word that cannot be fetched leaves the machine as it was.
* The trace shows the word as soon as it is fetched, and its mnemonic once it is decoded.
* Only an instruction that ran to its end counts as a cycle, and only while the host has
  asked neither to stop nor to pause.
-/

namespace Chip8

/-- Why a step failed. -/
inductive StepError where
  /-- The word at the program counter is not all in memory. -/
  | fetch (pc : UInt16) (cause : AddressError)
  /-- The word is no instruction. -/
  | decode (cause : DecodeError)
  /-- The instruction failed. -/
  | execute (instruction : Instruction) (cause : Fault)
deriving DecidableEq

namespace StepError

/-- The texts of the error and of its causes, outermost first. -/
def messages : StepError → List String
  | fetch pc e =>
    ["could not fetch instruction at " ++ Numeral.addressText pc.toNat, e.message]
  | decode e => [e.message]
  | execute ins e => ["error executing " ++ ins.mnemonic, e.message]

end StepError

namespace Machine

/-- The word at the program counter. -/
def fetch (m : Machine) : Except AddressError Opcode := do
  let high ← m.memory.read m.pc.toNat
  let low ← m.memory.read (m.pc.toNat + 1)
  pure (.ofBytes high low)

/-- Executes an instruction and names it if it fails. -/
def execute (m : Machine) (ins : Instruction) : Outcome StepError :=
  let out := m.perform ins
  { machine := out.machine
    signals := out.signals
    result := out.result.mapError (.execute ins) }

/-- Whether the cycle counter moves. -/
def counts (m : Machine) : Bool :=
  !m.control.stopped && !m.control.paused && m.cycles < maxCycles

/-- Counts a cycle. -/
def countCycle (m : Machine) : Machine :=
  if m.counts then { m with cycles := m.cycles + 1 } else m

/-- The trace of a decoded instruction. -/
def traceText (op : Opcode) (ins : Instruction) : String :=
  op.text ++ " " ++ ins.mnemonic

/-- Executes a decoded instruction and counts it if it ran to its end. -/
def executeCounted (m : Machine) (ins : Instruction) : Outcome StepError :=
  let out := m.execute ins
  match out.result with
  | .ok .executed => { out with machine := out.machine.countCycle }
  | _ => out

/-- The machine that has fetched a word: it shows the word and points past it. -/
def advance (m : Machine) (op : Opcode) : Machine :=
  { m with trace := op.text, pc := m.pc + 2 }

/-- Fetches, decodes and executes the instruction at the program counter. -/
def step (m : Machine) : Outcome StepError :=
  match m.fetch with
  | .error e => { machine := m, result := .error (.fetch m.pc e) }
  | .ok op =>
    match op.decode with
    | .error e => { machine := m.advance op, result := .error (.decode e) }
    | .ok ins => { m.advance op with trace := traceText op ins }.executeCounted ins

end Machine

end Chip8
