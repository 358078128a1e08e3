import Chip8.Proofs.Machine.Failure
import Chip8.Proofs.Overlay

/-!
# What a failed step leaves behind

A failure is not undone. Fetching fails before anything has changed, decoding when the word is shown
and the program counter points past it, and executing when the mnemonic is shown too. What the
instruction itself did until then is told by `leftBy`: drawing has cleared `VF`, and blocks of cells
are stored and loaded up to the end of memory.

**Theorem (`failed_step_leaves`).** A failed step leaves exactly this. All other parts of the
machine are as they were, and no timer signals.
-/

namespace Chip8.Machine

/-- The machine that a failing instruction leaves. -/
def leftBy (m : Machine) : Instruction → Machine
  | .draw _ _ _ => { m with registers := m.registers.set .vF 0 }
  | .storeDecimal x =>
    { m with memory := m.memory.overlay m.index.toNat (decimalDigits (m.reg x)) }
  | .storeRegisters x =>
    { m with memory := m.memory.overlay m.index.toNat (m.registers.block 0 (x.index + 1)) }
  | .loadRegisters x =>
    { m with registers := m.registers.overlay 0 (m.memory.block m.index.toNat (x.index + 1)) }
  | _ => m

/-- What is left of a machine after a step that failed. -/
inductive Remains (m : Machine) : StepError → Machine → Prop
  | fetch {pc : UInt16} {cause : AddressError} : Remains m (.fetch pc cause) m
  | decode {op : Opcode} {cause : DecodeError} : m.Holds op →
      Remains m (.decode cause) { m with pc := m.pc + 2, trace := op.text }
  | execute {op : Opcode} {ins : Instruction} {fault : Fault} : m.Holds op → op.Spells ins →
      Remains m (.execute ins fault)
        ({ m with pc := m.pc + 2, trace := op.text ++ " " ++ ins.mnemonic }.leftBy ins)

/-- The second machine has the parts of the first that no failure touches. -/
structure Undisturbed (m m' : Machine) : Prop where
  cycles : m'.cycles = m.cycles
  index : m'.index = m.index
  stack : m'.stack = m.stack
  screen : m'.screen = m.screen
  timers : m'.timers = m.timers
  generator : m'.generator = m.generator
  keypad : m'.keypad = m.keypad
  control : m'.control = m.control

/-! ## Failing instructions -/

/-- A failing instruction leaves what `leftBy` tells. -/
theorem perform_machine_of_error {m : Machine} {ins : Instruction} {fault : Fault}
    (h : (m.perform ins).result = .error fault) : (m.perform ins).machine = m.leftBy ins := by
  cases ins with
  | ret =>
    rw [perform, returnFromCall] at h ⊢
    split at h
    · cases h
    · rfl
  | awaitKey x => exact absurd h waitForKey_ne_error
  | draw x y n =>
    simp only [perform, drawSprite] at h ⊢
    split at h
    · rfl
    · cases h
  | storeDecimal x => exact m.store_machine _
  | storeRegisters x => exact m.storeUpTo_machine x
  | loadRegisters x => exact m.loadUpTo_machine x
  | _ => cases h

theorem perform_signals_of_error {m : Machine} {ins : Instruction} {fault : Fault}
    (h : (m.perform ins).result = .error fault) : (m.perform ins).signals = [] := by
  rw [perform_signals]
  cases ins with
  | setSound x => cases h
  | _ => rfl

theorem undisturbed_leftBy (m : Machine) (ins : Instruction) : m.Undisturbed (m.leftBy ins) := by
  unfold leftBy
  split <;> exact ⟨rfl, rfl, rfl, rfl, rfl, rfl, rfl, rfl⟩

/-- Nothing is stored or loaded past the end of memory. -/
theorem leftBy_of_le {m : Machine} (h : 4095 ≤ m.index.toNat) (x : Register) :
    m.leftBy (.storeDecimal x) = m ∧ m.leftBy (.storeRegisters x) = m ∧
      m.leftBy (.loadRegisters x) = m := by
  have hsize : Memory.size ≤ m.index.toNat := h
  simp only [leftBy, Memory.overlay_of_le _ hsize, Memory.block_of_le _ hsize,
    Registers.overlay_nil, and_self]

/-! ## The whole step -/

theorem Undisturbed.of_decoded {m m' : Machine} {op : Opcode} {ins : Instruction}
    (h : (m.decoded op ins).Undisturbed m') : m.Undisturbed m' :=
  ⟨h.cycles, h.index, h.stack, h.screen, h.timers, h.generator, h.keypad, h.control⟩

theorem executeCounted_of_error {m : Machine} {ins : Instruction} {fault : Fault}
    (h : (m.perform ins).result = .error fault) :
    m.executeCounted ins =
      { machine := m.leftBy ins, signals := [], result := .error (.execute ins fault) } := by
  have hmachine := perform_machine_of_error h
  have hsignals := perform_signals_of_error h
  simp only [executeCounted, execute, h, hmachine, hsignals]
  rfl

/-- **What a failed step leaves.** A step that fails leaves exactly what was done before the
failure, and past the end of memory there is nothing to store or to load. -/
theorem failed_step_leaves {m : Machine} {e : StepError} (h : m.step.result = .error e) :
    m.step.signals = [] ∧ m.Undisturbed m.step.machine ∧ m.Remains e m.step.machine ∧
      (4095 ≤ m.index.toNat → ∀ x, m.leftBy (.storeDecimal x) = m ∧
        m.leftBy (.storeRegisters x) = m ∧ m.leftBy (.loadRegisters x) = m) := by
  rw [← and_assoc, ← and_assoc]
  refine ⟨?_, fun hindex => leftBy_of_le hindex⟩
  rcases m.step_cases with
    ⟨cause, hfetch, hstep⟩ | ⟨op, cause, hfetch, hdecode, hstep⟩ |
    ⟨op, ins, hfetch, hdecode, hstep⟩
  · rw [hstep] at h ⊢
    cases h
    exact ⟨⟨rfl, rfl, rfl, rfl, rfl, rfl, rfl, rfl, rfl⟩, .fetch⟩
  · rw [hstep] at h ⊢
    cases h
    exact ⟨⟨rfl, rfl, rfl, rfl, rfl, rfl, rfl, rfl, rfl⟩, .decode (fetch_eq_ok_iff.1 hfetch)⟩
  · rw [hstep, executeCounted_result, mapError_eq_error_iff] at h
    obtain ⟨fault, hfault, rfl⟩ := h
    rw [hstep, executeCounted_of_error hfault]
    exact ⟨⟨rfl, ((m.decoded op ins).undisturbed_leftBy ins).of_decoded⟩,
      .execute (fetch_eq_ok_iff.1 hfetch) (Opcode.decode_eq_ok_iff.1 hdecode)⟩

/-- A machine whose program `LD V1, [I]` begins to load at the last cell. -/
def overreaching : Machine :=
  { fresh (.ofSeed 0 0 0 0) with memory := Memory.fresh.load #[0xF1, 0x65], index := 4094 }

theorem step_overreaching :
    overreaching.step.result =
      .error (.execute (.loadRegisters ⟨1⟩) (.address ⟨4095, 4094⟩)) := by
  have hholds : overreaching.Holds ⟨0xF165⟩ :=
    holds_of_load (i := 0) rfl (by decide) (by decide) (by decide) (by decide)
  have hspells : Opcode.Spells ⟨0xF165⟩ (.loadRegisters ⟨1⟩) :=
    (by decide : 0xF165 = 0xF * 0x1000 + 1 * 0x100 + 0x65)
  exact step_of_fails (.execute hholds hspells ⟨by decide, rfl⟩)

theorem failed_step_leaves_overreaching :
    overreaching.step.signals = [] ∧ overreaching.Undisturbed overreaching.step.machine ∧
      overreaching.Remains (.execute (.loadRegisters ⟨1⟩) (.address ⟨4095, 4094⟩))
        overreaching.step.machine := by
  obtain ⟨hsignals, hundisturbed, hremains, -⟩ := failed_step_leaves step_overreaching
  exact ⟨hsignals, hundisturbed, hremains⟩

end Chip8.Machine
