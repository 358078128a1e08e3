import Chip8.Machine.Step
import Chip8.Proofs.Machine.Footprint

/-!
# What a step does

A step ends in one of three ways (`step_cases`): the word cannot be fetched, the word is no
instruction, or the instruction is executed and counted.

**Frame.** Whatever an instruction does, it leaves the keypad, the requests of the host and the
records of the run alone, and it draws from the generator at most once (`keeps_perform`).
-/

namespace Chip8.Machine

/-! ## What an instruction leaves alone -/

/-- The second machine has the keypad, the requests and the records of the first, and its
generator up to one draw. -/
structure Keeps (m m' : Machine) : Prop where
  keypad : m'.keypad = m.keypad
  control : m'.control = m.control
  cycles : m'.cycles = m.cycles
  trace : m'.trace = m.trace
  generator : m'.generator = m.generator ∨ m'.generator = m.generator.next

theorem Touches.keeps {m m' : Machine} {ins : Instruction} (h : m.Touches ins m') :
    m.Keeps m' := by
  cases h with
  | generator => exact ⟨rfl, rfl, rfl, rfl, .inr rfl⟩
  | _ => exact ⟨rfl, rfl, rfl, rfl, .inl rfl⟩

/-- **Frame of an instruction.** No instruction touches the keypad, the requests of the host or
the records of the run. -/
theorem keeps_perform (m : Machine) (ins : Instruction) : m.Keeps (m.perform ins).machine :=
  (m.touches_perform ins).keeps

/-! ## Counting -/

theorem executeCounted_result (m : Machine) (ins : Instruction) :
    (m.executeCounted ins).result = (m.perform ins).result.mapError (.execute ins) := by
  rw [executeCounted]
  split <;> rfl

theorem executeCounted_machine (m : Machine) (ins : Instruction) :
    ((m.perform ins).result = .ok .executed ∧
      (m.executeCounted ins).machine = (m.perform ins).machine.countCycle) ∨
    ((m.perform ins).result ≠ .ok .executed ∧
      (m.executeCounted ins).machine = (m.perform ins).machine) := by
  rw [executeCounted]
  split
  · next h =>
    exact .inl ⟨mapError_eq_ok_iff.1 h, rfl⟩
  · next h =>
    exact .inr ⟨fun hok => h (mapError_eq_ok_iff.2 hok), rfl⟩

theorem executeCounted_cycles (m : Machine) (ins : Instruction) :
    ∃ n, (m.executeCounted ins).machine = { (m.perform ins).machine with cycles := n } := by
  rcases m.executeCounted_machine ins with ⟨-, hmachine⟩ | ⟨-, hmachine⟩
  · rw [hmachine, countCycle]
    split
    · exact ⟨_, rfl⟩
    · exact ⟨(m.perform ins).machine.cycles, rfl⟩
  · exact ⟨(m.perform ins).machine.cycles, hmachine⟩

theorem executeCounted_of_done {m m' : Machine} {ins : Instruction}
    (h : m.perform ins = done m') : m.executeCounted ins = { machine := m'.countCycle } := by
  rw [executeCounted, execute, h]
  rfl

theorem executeCounted_of_waiting {m m' : Machine} {ins : Instruction}
    (h : m.perform ins = { machine := m', result := .ok .waiting }) :
    m.executeCounted ins = { machine := m', result := .ok .waiting } := by
  rw [executeCounted, execute, h]
  rfl

theorem counts_iff {m : Machine} : m.counts = true ↔
    m.control.stopped = false ∧ m.control.paused = false ∧ m.cycles < maxCycles := by
  simp only [counts, Bool.and_eq_true, Bool.not_eq_true', decide_eq_true_eq, and_assoc]

/-- A cycle is counted unless the host has asked to stop or to pause, or the counter is full. -/
theorem countCycle_eq (m : Machine) :
    m.countCycle = { m with
      cycles := if m.control.stopped = false ∧ m.control.paused = false ∧ m.cycles < maxCycles then
          m.cycles + 1
        else m.cycles } := by
  simp only [countCycle, counts_iff]
  split <;> rfl

/-! ## The whole step -/

/-- The machine that has decoded an instruction: it shows the word and its mnemonic. -/
def decoded (m : Machine) (op : Opcode) (ins : Instruction) : Machine :=
  { m.advance op with trace := traceText op ins }

theorem step_of_fetch_error {m : Machine} {e : AddressError} (h : m.fetch = .error e) :
    m.step = { machine := m, result := .error (.fetch m.pc e) } := by
  rw [step, h]

theorem step_of_decode_error {m : Machine} {op : Opcode} {e : DecodeError}
    (hop : m.fetch = .ok op) (h : op.decode = .error e) :
    m.step = { machine := m.advance op, result := .error (.decode e) } := by
  simp only [step, hop, h]

theorem step_of_decode {m : Machine} {op : Opcode} {ins : Instruction}
    (hop : m.fetch = .ok op) (h : op.decode = .ok ins) :
    m.step = (m.decoded op ins).executeCounted ins := by
  simp only [step, hop, h, decoded]

/-- **What a step can do.** -/
theorem step_cases (m : Machine) :
    (∃ e, m.fetch = .error e ∧ m.step = { machine := m, result := .error (.fetch m.pc e) }) ∨
    (∃ op e, m.fetch = .ok op ∧ op.decode = .error e ∧
      m.step = { machine := m.advance op, result := .error (.decode e) }) ∨
    (∃ op ins, m.fetch = .ok op ∧ op.decode = .ok ins ∧
      m.step = (m.decoded op ins).executeCounted ins) := by
  cases hop : m.fetch with
  | error e => exact .inl ⟨e, rfl, step_of_fetch_error hop⟩
  | ok op =>
    cases hins : op.decode with
    | error e => exact .inr (.inl ⟨op, e, rfl, hins, step_of_decode_error hop hins⟩)
    | ok ins => exact .inr (.inr ⟨op, ins, rfl, hins, step_of_decode hop hins⟩)

theorem step_keypad_control (m : Machine) :
    m.step.machine.keypad = m.keypad ∧ m.step.machine.control = m.control := by
  rcases m.step_cases with ⟨e, -, hstep⟩ | ⟨op, e, -, -, hstep⟩ | ⟨op, ins, -, -, hstep⟩
  · rw [hstep]
    exact ⟨rfl, rfl⟩
  · rw [hstep]
    exact ⟨rfl, rfl⟩
  · have hkeeps := (m.decoded op ins).keeps_perform ins
    obtain ⟨n, hmachine⟩ := (m.decoded op ins).executeCounted_cycles ins
    rw [hstep, hmachine]
    exact ⟨hkeeps.keypad, hkeeps.control⟩

end Chip8.Machine
