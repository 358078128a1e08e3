import Chip8.Emulator
import Chip8.Proofs.Instruction.Mnemonic
import Chip8.Proofs.Machine.Steady
import Chip8.Proofs.SaveState.Installation

/-!
# Machines that come about

A machine is `Reachable` when it comes about from a fresh one: events happen to it, programs are
placed in its memory, and it takes over save states that were read from any text.

**Invariant** (`Sound`). The cycle counter has not passed its limit, the trace has no brace and
no newline, and the generator is not in the state of four zeros. These are the parts of a machine
that a save state could fail to bring back.

**Theorem (`Reachable.sound`).** Every reachable machine is sound.
-/

namespace Chip8.Machine

/-- The machine with its program area cleared. -/
def cleared (m : Machine) : Machine :=
  { m with memory := m.memory.clear }

def loaded (m : Machine) (program : Array UInt8) : Machine :=
  { m with memory := m.memory.load program }

/-- The machine comes about from a fresh one. -/
inductive Reachable : Machine → Prop
  /-- Any four words are a seed. -/
  | fresh (x y z w : UInt32) : Reachable (.fresh (.ofSeed x y z w))
  | react {m : Machine} (e : Event) : Reachable m → Reachable (m.react e).machine
  | clear {m : Machine} : Reachable m → Reachable m.cleared
  | load {m : Machine} (program : Array UInt8) : Reachable m → Reachable (m.loaded program)
  /-- A save state is read and takes the place of the machine's own state. -/
  | restore {m m' : Machine} {text : String} {s : SaveState} :
      Reachable m → SaveState.ofText text = .ok s → m.restore s = .ok m' → Reachable m'

/-- Nothing of the machine is lost in a save state. -/
structure Sound (m : Machine) : Prop where
  cycles_le : m.cycles ≤ maxCycles
  trace_clean : Text.Clean m.trace.toList
  generator_nonzero : m.generator.Nonzero

theorem Sound.steady {m : Machine} (h : m.Sound) : m.Steady :=
  ⟨h.cycles_le, h.generator_nonzero⟩

theorem Steady.sound {m : Machine} (h : m.Steady) (htrace : Text.Clean m.trace.toList) :
    m.Sound :=
  ⟨h.cycles_le, htrace, h.generator_nonzero⟩

/-! ## Steps -/

theorem Sound.of_keeps {m m' : Machine} (h : m.Sound) (hkeeps : m.Keeps m') : m'.Sound :=
  (h.steady.of_keeps hkeeps).sound (hkeeps.trace ▸ h.trace_clean)

theorem clean_traceText (op : Opcode) (ins : Instruction) :
    Text.Clean (traceText op ins).toList := by
  simp [traceText, op.clean_text, ins.clean_mnemonic]

theorem clean_step_trace {m : Machine} (h : Text.Clean m.trace.toList) :
    Text.Clean m.step.machine.trace.toList := by
  rcases m.step_cases with ⟨e, -, hstep⟩ | ⟨op, e, -, -, hstep⟩ | ⟨op, ins, -, -, hstep⟩
  · rw [hstep]
    exact h
  · rw [hstep]
    exact op.clean_text
  · obtain ⟨n, hmachine⟩ := (m.decoded op ins).executeCounted_cycles ins
    have htrace := ((m.decoded op ins).keeps_perform ins).trace
    rw [hstep, hmachine, htrace]
    exact clean_traceText op ins

theorem Sound.step {m : Machine} (h : m.Sound) : m.step.machine.Sound :=
  h.steady.step.sound (clean_step_trace h.trace_clean)

theorem react_step_keypad (m : Machine) : (m.react .step).machine.keypad = m.keypad :=
  m.step_keypad_control.1

theorem react_step_control (m : Machine) : (m.react .step).machine.control = m.control :=
  m.step_keypad_control.2

/-! ## Everything else that happens -/

theorem sound_fresh (x y z w : UInt32) : (fresh (.ofSeed x y z w)).Sound :=
  (steady_fresh x y z w).sound (by simp [fresh])

theorem Sound.reset {m : Machine} (h : m.Sound) : m.reset.Sound :=
  h.steady.reset.sound (by simp [Machine.reset])

theorem Sound.react {m : Machine} (h : m.Sound) (e : Event) : (m.react e).machine.Sound := by
  cases e with
  | step => exact h.step
  | reset => exact h.reset
  | _ => exact ⟨h.cycles_le, h.trace_clean, h.generator_nonzero⟩

theorem keeps_cleared (m : Machine) : m.Keeps m.cleared := by
  unfold cleared
  exact ⟨rfl, rfl, rfl, rfl, .inl rfl⟩

theorem keeps_loaded (m : Machine) (program : Array UInt8) : m.Keeps (m.loaded program) := by
  unfold loaded
  exact ⟨rfl, rfl, rfl, rfl, .inl rfl⟩

/-- A machine takes over a sound state from a text. -/
theorem sound_restore {m m' : Machine} {text : String} {s : SaveState}
    (hread : SaveState.ofText text = .ok s) (h : m.restore s = .ok m') : m'.Sound := by
  obtain ⟨memory, rfl⟩ := exists_overwrite_of_restore h
  exact (m.steady_overwrite memory s).sound (SaveState.writable_of_ofText hread).trace_clean

/-! ## The emulator's way of loading -/

theorem reachable_unload {e : Emulator} (h : e.machine.Reachable) :
    e.unload.emulator.machine.Reachable :=
  have hcleared : (e.machine.react .stop).machine.cleared.Reachable := (h.react .stop).clear
  ((hcleared.react .stop).react .reset).react .clearStop

/-- Loading keeps an emulator's machine reachable, also when the program cannot be read. -/
theorem reachable_loadProgram {e : Emulator} (h : e.machine.Reachable) (source : Source) :
    (e.loadProgram source).emulator.machine.Reachable := by
  have hunload := reachable_unload h
  unfold Emulator.loadProgram
  cases source with
  | error error => exact hunload
  | ok bytes => exact hunload.load bytes.data

/-- **Every reachable machine is sound.** -/
theorem Reachable.sound {m : Machine} (h : m.Reachable) : m.Sound := by
  induction h with
  | fresh x y z w => exact sound_fresh x y z w
  | react e _ ih => exact ih.react e
  | clear _ ih => exact ih.of_keeps (keeps_cleared _)
  | load program _ ih => exact ih.of_keeps (keeps_loaded _ program)
  | restore _ hread hrestore _ => exact sound_restore hread hrestore

end Chip8.Machine
