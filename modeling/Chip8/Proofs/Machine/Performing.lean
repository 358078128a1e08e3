import Chip8.Proofs.Machine.Nesting

/-!
# How an instruction comes to be performed

A machine performs an instruction because it steps where the word of the instruction stands, or
because its host has it executed, be it in memory or not (`Performs`).

A step moves the program counter and shows the word first, and counts a cycle last. The registers,
the memory and the index register do not depend on this (`Performs.data`), so what an instruction
does to them is shown for `perform` and holds either way.
-/

namespace Chip8.Machine

/-- The machine performs the instruction, with this outcome. -/
inductive Performs (m : Machine) (ins : Instruction) : Outcome StepError → Prop
  /-- Its word stands at the program counter. -/
  | step {op : Opcode} : m.Holds op → op.Spells ins → Performs m ins m.step
  /-- The host has it executed. -/
  | asked : Performs m ins (m.execute ins)

/-- The second machine has the registers, the memory and the index register of the first. -/
structure SameData (m m' : Machine) : Prop where
  registers : m'.registers = m.registers
  memory : m'.memory = m.memory
  index : m'.index = m.index

variable {m : Machine} {op : Opcode} {ins : Instruction} {out : Outcome StepError}

theorem sameData_skipIf (m : Machine) (op : Opcode) (ins : Instruction) (condition : Bool) :
    (m.skipIf condition).SameData ((m.decoded op ins).skipIf condition) := by
  rw [skipIf, skipIf]
  split <;> exact ⟨rfl, rfl, rfl⟩

/-- Where the program counter points and what is shown makes no difference to the data. -/
theorem perform_decoded (m : Machine) (op : Opcode) (ins : Instruction) :
    ((m.decoded op ins).perform ins).result = (m.perform ins).result ∧
      (m.perform ins).machine.SameData ((m.decoded op ins).perform ins).machine := by
  cases ins with
  | ret =>
    simp only [perform, returnFromCall, decoded, advance]
    split <;> exact ⟨rfl, rfl, rfl, rfl⟩
  | skipIfByte x b | skipUnlessByte x b | skipIfSame x y | skipUnlessSame x y | skipIfKey x
  | skipUnlessKey x => exact ⟨rfl, m.sameData_skipIf op _ _⟩
  | awaitKey x =>
    simp only [perform, waitForKey, decoded, advance]
    split <;> exact ⟨rfl, rfl, rfl, rfl⟩
  | draw x y n =>
    simp only [perform, drawSprite, setReg, decoded, advance]
    split <;> exact ⟨rfl, rfl, rfl, rfl⟩
  | storeDecimal x =>
    simp only [perform, store, reg, decoded, advance]
    split <;> exact ⟨rfl, rfl, rfl, rfl⟩
  | storeRegisters x =>
    simp only [perform, storeUpTo, decoded, advance]
    split <;> exact ⟨rfl, rfl, rfl, rfl⟩
  | loadRegisters x =>
    simp only [perform, loadUpTo, decoded, advance]
    split <;> exact ⟨rfl, rfl, rfl, rfl⟩
  | _ => exact ⟨rfl, rfl, rfl, rfl⟩

/-- **What is performed is what `perform` tells**, as far as the data are concerned. -/
theorem Performs.data (h : m.Performs ins out) :
    out.result = (m.perform ins).result.mapError (.execute ins) ∧
      (m.perform ins).machine.SameData out.machine := by
  cases h with
  | asked => exact ⟨rfl, rfl, rfl, rfl⟩
  | @step op hholds hspells =>
    obtain ⟨hresult, hregisters, hmemory, hindex⟩ := m.perform_decoded op ins
    obtain ⟨n, hmachine⟩ := (m.decoded op ins).executeCounted_cycles ins
    rw [step_of_spells hholds hspells, executeCounted_result, hmachine, hresult]
    exact ⟨rfl, hregisters, hmemory, hindex⟩

/-! ## How it ends -/

theorem Performs.executed_iff (h : m.Performs ins out) :
    out.result = .ok .executed ↔ (m.perform ins).result = .ok .executed := by
  rw [h.data.1, mapError_eq_ok_iff]

theorem perform_eq_waiting_iff :
    (m.perform ins).result = .ok .waiting ↔ (∃ x, ins = .awaitKey x) ∧ m.keypad.held = none := by
  cases ins with
  | awaitKey x =>
    rw [perform, waitForKey]
    split <;> simp [done, *]
  | ret =>
    rw [perform, returnFromCall]
    split <;> simp [done, failed]
  | draw x y n =>
    simp only [perform, drawSprite]
    split <;> simp [done, failed]
  | storeDecimal x =>
    rw [perform, store]
    split <;> simp [done, failed]
  | storeRegisters x =>
    rw [perform, storeUpTo]
    split <;> simp [done, failed]
  | loadRegisters x =>
    rw [perform, loadUpTo]
    split <;> simp [done, failed]
  | _ => simp [perform, done]

theorem perform_eq_executed_iff (h : ∀ x, ins ≠ .awaitKey x) :
    (m.perform ins).result = .ok .executed ↔ ∀ fault, ¬m.Faults fault ins := by
  simp only [← perform_eq_error_iff]
  cases hresult : (m.perform ins).result with
  | error fault => exact iff_of_false (by simp) fun hnone => hnone fault rfl
  | ok status =>
    cases status with
    | executed => exact iff_of_true rfl (by simp)
    | waiting =>
      obtain ⟨⟨x, hins⟩, -⟩ := perform_eq_waiting_iff.1 hresult
      exact absurd hins (h x)

end Chip8.Machine
