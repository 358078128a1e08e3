import Chip8.Proofs.Instruction.Forms
import Chip8.Proofs.Machine.Step
import Chip8.Proofs.Memory

/-!
# When a step fails

`Fails m e` lists, without executing anything, the states in which a step fails and the error
that it gives. Fetching needs the two cells at the program counter, decoding a word that spells an
instruction. Executing (`Faults`) needs an address to return to, or all the cells from the index
register on that a sprite, three digits or a block of registers takes. A missing cell is reported
with the first address that is needed and not there.

**Theorem (`step_fails_exactly`).** A step gives exactly the errors that are listed, never that of a
register that does not exist, and in every other state it executes its instruction or waits.
-/

namespace Chip8.Machine

/-- The two cells at the program counter hold the word, high byte first. -/
def Holds (m : Machine) (op : Opcode) : Prop :=
  ∃ h : m.pc.toNat + 1 < 4095,
    op.word.toNat = m.memory.cells[m.pc.toNat].toNat * 256 + m.memory.cells[m.pc.toNat + 1].toNat

/-- The report of a cell that is missing at the index register or after it. -/
def missingCell (m : Machine) : AddressError :=
  ⟨max m.index.toNat 4095, 4094⟩

/-- The instruction cannot be executed, for this reason. -/
def Faults (m : Machine) (fault : Fault) : Instruction → Prop
  | .ret => m.stack.frames = [] ∧ fault = .stackEmpty
  | .draw _ _ n => 1 ≤ n.toNat ∧ 4095 < m.index.toNat + n.toNat ∧ fault = .address m.missingCell
  | .storeDecimal _ => 4095 ≤ m.index.toNat + 2 ∧ fault = .address m.missingCell
  | .storeRegisters x => 4095 ≤ m.index.toNat + x.index ∧ fault = .address m.missingCell
  | .loadRegisters x => 4095 ≤ m.index.toNat + x.index ∧ fault = .address m.missingCell
  | _ => False

/-- The step fails with this error. -/
inductive Fails (m : Machine) : StepError → Prop
  | fetch : 4094 ≤ m.pc.toNat → Fails m (.fetch m.pc ⟨max m.pc.toNat 4095, 4094⟩)
  | machineRoutine {op : Opcode} : m.Holds op → op.word.toNat < 0x1000 →
      op.word.toNat ≠ 0x00E0 → op.word.toNat ≠ 0x00EE → Fails m (.decode (.machineRoutine op))
  | unknown {op : Opcode} : m.Holds op → 0x1000 ≤ op.word.toNat → (∀ ins, ¬op.Spells ins) →
      Fails m (.decode (.unknown op))
  | execute {op : Opcode} {ins : Instruction} {fault : Fault} : m.Holds op → op.Spells ins →
      m.Faults fault ins → Fails m (.execute ins fault)

/-! ## Fetching -/

theorem fetch_eq_ok_iff {m : Machine} {op : Opcode} : m.fetch = .ok op ↔ m.Holds op := by
  rw [fetch, Holds]
  by_cases h : m.pc.toNat + 1 < Memory.size
  · rw [Memory.read_of_lt (Nat.lt_of_succ_lt h), Memory.read_of_lt h]
    constructor
    · intro hop
      cases hop
      exact ⟨h, Opcode.toNat_ofBytes _ _⟩
    · intro hfacts
      obtain ⟨_, hop⟩ := hfacts
      refine congrArg Except.ok (Opcode.eq_of_toNat_eq ?_)
      exact (Opcode.toNat_ofBytes _ _).trans hop.symm
  · refine ⟨fun hop => ?_, fun ⟨hlt, _⟩ => absurd hlt h⟩
    obtain ⟨high, -, hrest⟩ := bind_eq_ok_iff.1 hop
    rw [Memory.read_of_le (Nat.le_of_not_lt h)] at hrest
    cases hrest

/-- A word that is not all in memory is reported with its first missing cell. -/
theorem fetch_eq_error_iff {m : Machine} {e : AddressError} :
    m.fetch = .error e ↔ 4094 ≤ m.pc.toNat ∧ e = ⟨max m.pc.toNat 4095, 4094⟩ := by
  rw [fetch]
  rcases Nat.lt_or_ge (m.pc.toNat + 1) Memory.size with hnext | hnext
  · have hpc : ¬4094 ≤ m.pc.toNat := Nat.not_le.2 (Nat.lt_of_succ_lt_succ hnext)
    rw [Memory.read_of_lt (Nat.lt_of_succ_lt hnext), Memory.read_of_lt hnext]
    refine ⟨fun h => ?_, fun h => absurd h.1 hpc⟩
    cases h
  · have hpc : 4094 ≤ m.pc.toNat := Nat.le_of_succ_le_succ hnext
    have hreport : m.fetch = .error (Memory.outside (max m.pc.toNat Memory.size)) := by
      rw [fetch]
      rcases Nat.lt_or_ge m.pc.toNat Memory.size with hlow | hlow
      · have hmax : max m.pc.toNat Memory.size = m.pc.toNat + 1 := by omega
        rw [Memory.read_of_lt hlow, Memory.read_of_le hnext, hmax]
        rfl
      · rw [Memory.read_of_le hlow, Nat.max_eq_left hlow]
        rfl
    rw [← fetch, hreport, Except.error.injEq, eq_comm]
    exact ⟨fun he => ⟨hpc, he⟩, And.right⟩

theorem holds_of_load {m : Machine} {memory : Memory} {program : Array UInt8} {i : Nat}
    {op : Opcode} (hmemory : m.memory = memory.load program)
    (hpc : m.pc.toNat = Memory.programStart + i)
    (hfit : Memory.programStart + i + 1 < Memory.size) (h : i + 1 < program.size)
    (hop : op.word.toNat = program[i].toNat * 256 + program[i + 1].toNat) : m.Holds op := by
  have hnext : m.pc.toNat + 1 < 4095 := by
    rw [hpc]
    exact hfit
  have hhigh : m.memory.cells[m.pc.toNat] = program[i] := by
    simp only [hpc, hmemory]
    exact Memory.getElem_load (Nat.lt_of_succ_lt h) _
  have hlow : m.memory.cells[m.pc.toNat + 1] = program[i + 1] := by
    simp only [hpc, hmemory]
    exact Memory.getElem_load h _
  exact ⟨hnext, by rw [hop, hhigh, hlow]⟩

theorem fails_of_refusal {m : Machine} {op : Opcode} (hholds : m.Holds op)
    (h : ∀ ins, ¬op.Spells ins) : m.Fails (.decode op.refusal) := by
  by_cases hword : op.word.toNat < 0x1000
  · rw [Opcode.refusal, if_pos hword]
    exact .machineRoutine hholds hword (h .clear) (h .ret)
  · rw [Opcode.refusal, if_neg hword]
    exact .unknown hholds (Nat.le_of_not_lt hword) h

/-! ## Executing -/

theorem exists_overrun_iff {m : Machine} {count : Nat} {fault : Fault} :
    (∃ e, Memory.Overrun m.index.toNat count e ∧ fault = .address e) ↔
      1 ≤ count ∧ 4095 < m.index.toNat + count ∧ fault = .address m.missingCell := by
  constructor
  · intro h
    obtain ⟨e, ⟨hcount, hsize, rfl⟩, rfl⟩ := h
    exact ⟨hcount, hsize, rfl⟩
  · intro h
    obtain ⟨hcount, hsize, rfl⟩ := h
    exact ⟨m.missingCell, ⟨hcount, hsize, rfl⟩, rfl⟩

theorem exists_overrun_succ_iff {m : Machine} {last : Nat} {fault : Fault} :
    (∃ e, Memory.Overrun m.index.toNat (last + 1) e ∧ fault = .address e) ↔
      4095 ≤ m.index.toNat + last ∧ fault = .address m.missingCell := by
  rw [exists_overrun_iff]
  constructor
  · intro h
    obtain ⟨-, hsize, rfl⟩ := h
    exact ⟨Nat.le_of_lt_succ hsize, rfl⟩
  · intro h
    obtain ⟨hsize, rfl⟩ := h
    exact ⟨Nat.succ_pos last, Nat.lt_succ_of_le hsize, rfl⟩

theorem returnFromCall_eq_error_iff {m : Machine} {fault : Fault} :
    m.returnFromCall.result = .error fault ↔ m.stack.frames = [] ∧ fault = .stackEmpty := by
  rw [returnFromCall, CallStack.pop?]
  cases m.stack.frames with
  | nil => simp [failed, eq_comm]
  | cons address frames => simp [done]

theorem waitForKey_ne_error {m : Machine} {x : Register} {fault : Fault} :
    (m.waitForKey x).result ≠ .error fault := by
  rw [waitForKey]
  intro h
  split at h <;> cases h

theorem drawSprite_eq_error_iff {m : Machine} {x y : Register} {rows : UInt8} {fault : Fault} :
    (m.drawSprite x y rows).result = .error fault ↔
      ∃ e, Memory.Overrun m.index.toNat rows.toNat e ∧ fault = .address e := by
  rw [drawSprite]
  constructor
  · intro h
    split at h
    · next e he =>
      cases h
      exact ⟨e, Memory.readMany_eq_error_iff.1 he, rfl⟩
    · cases h
  · intro hfacts
    obtain ⟨e, he, rfl⟩ := hfacts
    have hread : (m.setReg .vF 0).memory.readMany m.index.toNat rows.toNat = .error e :=
      Memory.readMany_eq_error_iff.2 he
    split
    · next e' he' =>
      cases hread.symm.trans he'
      rfl
    · next sprite hsprite => cases hread.symm.trans hsprite

theorem store_eq_error_iff {m : Machine} {bytes : List UInt8} {fault : Fault} :
    (m.store bytes).result = .error fault ↔
      ∃ e, Memory.Overrun m.index.toNat bytes.length e ∧ fault = .address e := by
  have hwrite (e : AddressError) :
      (m.memory.writeMany m.index.toNat bytes).2 = some e ↔
        Memory.Overrun m.index.toNat bytes.length e := Memory.writeMany_eq_some_iff
  simp only [← hwrite]
  rw [store]
  split
  · next memory heq => simp [heq, done]
  · next memory e heq => simp [heq, failed, eq_comm]

theorem storeUpTo_eq_error_iff {m : Machine} {x : Register} {fault : Fault} :
    (m.storeUpTo x).result = .error fault ↔
      ∃ e, Memory.Overrun m.index.toNat (x.index + 1) e ∧ fault = .address e := by
  have hstore : (storeAll m.registers m.memory m.index.toNat x.upTo).2 = some fault ↔ _ :=
    storeAll_eq_some_iff fun r hr => Register.lt_of_mem_upTo hr
  rw [Register.length_upTo] at hstore
  rw [← hstore, storeUpTo]
  split
  · next memory heq => simp [heq, done]
  · next memory fault' heq => simp [heq, failed]

theorem loadUpTo_eq_error_iff {m : Machine} {x : Register} {fault : Fault} :
    (m.loadUpTo x).result = .error fault ↔
      ∃ e, Memory.Overrun m.index.toNat (x.index + 1) e ∧ fault = .address e := by
  have hload : (loadAll m.memory m.registers m.index.toNat x.upTo).2 = some fault ↔ _ :=
    loadAll_eq_some_iff fun r hr => Register.lt_of_mem_upTo hr
  rw [Register.length_upTo] at hload
  rw [← hload, loadUpTo]
  split
  · next regs heq => simp [heq, done]
  · next regs fault' heq => simp [heq, failed]

/-- **When an instruction fails.** -/
theorem perform_eq_error_iff {m : Machine} {ins : Instruction} {fault : Fault} :
    (m.perform ins).result = .error fault ↔ m.Faults fault ins := by
  cases ins with
  | ret => exact returnFromCall_eq_error_iff
  | awaitKey x => exact iff_of_false waitForKey_ne_error id
  | draw x y n => exact drawSprite_eq_error_iff.trans exists_overrun_iff
  | storeDecimal x => exact store_eq_error_iff.trans exists_overrun_succ_iff
  | storeRegisters x => exact storeUpTo_eq_error_iff.trans exists_overrun_succ_iff
  | loadRegisters x => exact loadUpTo_eq_error_iff.trans exists_overrun_succ_iff
  | _ => exact iff_of_false nofun id

theorem not_faults_register {m : Machine} {ins : Instruction} {cause : RegisterError} :
    ¬m.Faults (.register cause) ins := by
  intro h
  cases ins <;> simp [Faults] at h

/-! ## The whole step -/

theorem faults_decoded {m : Machine} {op : Opcode} {ins ins' : Instruction} {fault : Fault} :
    (m.decoded op ins).Faults fault ins' ↔ m.Faults fault ins' := by
  cases ins' <;> exact Iff.rfl

theorem fails_of_step {m : Machine} {e : StepError} (h : m.step.result = .error e) :
    m.Fails e := by
  rcases m.step_cases with
    ⟨cause, hfetch, hstep⟩ | ⟨op, cause, hfetch, hdecode, hstep⟩ |
    ⟨op, ins, hfetch, hdecode, hstep⟩
  · rw [hstep] at h
    cases h
    obtain ⟨hpc, rfl⟩ := fetch_eq_error_iff.1 hfetch
    exact .fetch hpc
  · rw [hstep] at h
    cases h
    obtain ⟨hnone, rfl⟩ := Opcode.decode_eq_error_iff.1 hdecode
    exact fails_of_refusal (fetch_eq_ok_iff.1 hfetch) hnone
  · rw [hstep, executeCounted_result, mapError_eq_error_iff] at h
    obtain ⟨fault, hfault, rfl⟩ := h
    exact .execute (fetch_eq_ok_iff.1 hfetch) (Opcode.decode_eq_ok_iff.1 hdecode)
      (faults_decoded.1 (perform_eq_error_iff.1 hfault))

theorem step_of_fails {m : Machine} {e : StepError} (h : m.Fails e) :
    m.step.result = .error e := by
  cases h with
  | fetch hpc => rw [step_of_fetch_error (fetch_eq_error_iff.2 ⟨hpc, rfl⟩)]
  | @machineRoutine op hholds hword hclear hret =>
    have hnone (ins : Instruction) (hspells : op.Spells ins) : False :=
      (hspells.word_of_lt hword).elim hclear hret
    have hdecode : op.decode = .error (.machineRoutine op) :=
      Opcode.decode_eq_error_iff.2 ⟨hnone, (if_pos hword).symm⟩
    rw [step_of_decode_error (fetch_eq_ok_iff.2 hholds) hdecode]
  | @unknown op hholds hword hnone =>
    have hdecode : op.decode = .error (.unknown op) :=
      Opcode.decode_eq_error_iff.2 ⟨hnone, (if_neg (Nat.not_lt.2 hword)).symm⟩
    rw [step_of_decode_error (fetch_eq_ok_iff.2 hholds) hdecode]
  | @execute op ins fault hholds hspells hfault =>
    have hperform : ((m.decoded op ins).perform ins).result = .error fault :=
      perform_eq_error_iff.2 (faults_decoded.2 hfault)
    rw [step_of_decode (fetch_eq_ok_iff.2 hholds) (Opcode.decode_eq_ok_iff.2 hspells),
      executeCounted_result, mapError_eq_error_iff]
    exact ⟨fault, hperform, rfl⟩

/-- **When a step fails.** A step gives exactly the listed errors, never that of a missing
register, and where none is listed it executes its instruction or waits for a key. -/
theorem step_fails_exactly (m : Machine) :
    (∀ e, m.step.result = .error e ↔ m.Fails e) ∧
      (∀ ins cause, m.step.result ≠ .error (.execute ins (.register cause))) ∧
      ((∃ e, m.Fails e) ∨ m.step.result = .ok .executed ∨ m.step.result = .ok .waiting) := by
  refine ⟨fun e => ⟨fails_of_step, step_of_fails⟩, fun ins cause h => ?_, ?_⟩
  · cases fails_of_step h with
    | execute _ _ hfault => exact not_faults_register hfault
  · cases h : m.step.result with
    | error e => exact .inl ⟨e, fails_of_step h⟩
    | ok status =>
      cases status with
      | executed => exact .inr (.inl rfl)
      | waiting => exact .inr (.inr rfl)

end Chip8.Machine
