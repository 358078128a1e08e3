import Chip8.Proofs.Machine.Performing

/-!
# Registers in memory

`V0` to `Vx` are stored in consecutive cells from the index register on and loaded from there, in
the same order and with the same last cell (`Memory.Mirrors`). Nothing about a transfer depends on
where this is: the cells may be those of the glyphs or of the program. A block of cells mirrors only
one block of registers and the other way around, so what one transfer leaves tells what the
opposite one finds.

**Theorem (`transfers_are_inverse`).** Loading brings back what was stored, whatever happened to
the registers in between, and storing what was just loaded changes nothing.
-/

namespace Chip8

namespace Memory

/-- The cells from an address on hold `V0` to `Vx` in order. -/
def Mirrors (memory : Memory) (address : Nat) (regs : Registers) (x : Register) : Prop :=
  ∀ r : Register, r.index ≤ x.index → memory.read (address + r.index) = .ok (regs.get r)

variable {memory : Memory} {address : Nat} {regs regs' : Registers} {x : Register}

theorem Mirrors.fits (h : memory.Mirrors address regs x) : address + x.index < size :=
  lt_of_read (h x (Nat.le_refl _))

/-- Cells mirror only one block of registers. -/
theorem Mirrors.get_eq (h : memory.Mirrors address regs x) (h' : memory.Mirrors address regs' x)
    {r : Register} (hr : r.index ≤ x.index) : regs'.get r = regs.get r :=
  Except.ok.inj ((h' r hr).symm.trans (h r hr))

theorem mirrors_overlay (memory : Memory) (regs : Registers) (h : address + x.index < size) :
    (memory.overlay address (regs.block 0 (x.index + 1))).Mirrors address regs x := by
  have hlength : (regs.block 0 (x.index + 1)).length = x.index + 1 :=
    Registers.length_block (by omega)
  intro r hr
  have hlt : r.index.val < (regs.block 0 (x.index + 1)).length := by omega
  rw [read_overlay_add hlt (by omega), Registers.getElem_block]

theorem mirrors_block (memory : Memory) (regs : Registers) (h : address + x.index < size) :
    memory.Mirrors address (regs.overlay 0 (memory.block address (x.index + 1))) x := by
  have hlength : (memory.block address (x.index + 1)).length = x.index + 1 := length_block h
  intro r hr
  have hlt : r.index.val < (memory.block address (x.index + 1)).length := by omega
  have hcell : address + r.index < size := by omega
  rw [Registers.get_overlay_of_lt regs hlt, getElem_block hlt hcell, read_of_lt hcell]

end Memory

namespace Machine

variable {m m' : Machine} {x : Register} {out out' : Outcome StepError}

/-- What storing `V0` to `Vx` leaves. -/
structure Stored (m : Machine) (x : Register) (m' : Machine) : Prop where
  cells : m'.memory.Mirrors m.index.toNat m.registers x
  others : ∀ a, a < m.index.toNat ∨ m.index.toNat + x.index < a →
    m'.memory.read a = m.memory.read a
  registers : m'.registers = m.registers
  index : m'.index = m.index

/-- What loading `V0` to `Vx` leaves. -/
structure Loaded (m : Machine) (x : Register) (m' : Machine) : Prop where
  registers : m.memory.Mirrors m.index.toNat m'.registers x
  others : ∀ r : Register, x.index < r.index → m'.reg r = m.reg r
  memory : m'.memory = m.memory
  index : m'.index = m.index

/-- What storing the digits of `Vx` leaves. -/
structure StoredDigits (m : Machine) (x : Register) (m' : Machine) : Prop where
  digits : ∃ h t u : UInt8, h.toNat ≤ 9 ∧ t.toNat ≤ 9 ∧ u.toNat ≤ 9 ∧
    100 * h.toNat + 10 * t.toNat + u.toNat = (m.reg x).toNat ∧
    m'.memory.read m.index.toNat = .ok h ∧ m'.memory.read (m.index.toNat + 1) = .ok t ∧
    m'.memory.read (m.index.toNat + 2) = .ok u
  others : ∀ a, a < m.index.toNat ∨ m.index.toNat + 2 < a → m'.memory.read a = m.memory.read a
  registers : m'.registers = m.registers
  index : m'.index = m.index

/-! ## When a transfer succeeds -/

theorem no_fault_iff {last : Nat} {cause : Fault} :
    (∀ fault, ¬(4095 ≤ last ∧ fault = cause)) ↔ last < Memory.size := by
  constructor
  · intro h
    exact Nat.lt_of_not_le fun hle => h cause ⟨hle, rfl⟩
  · intro h fault hfault
    exact absurd hfault.1 (Nat.not_le.2 h)

theorem Performs.storeRegisters_iff (h : m.Performs (.storeRegisters x) out) :
    out.result = .ok .executed ↔ m.index.toNat + x.index < Memory.size := by
  rw [h.executed_iff, perform_eq_executed_iff (fun _ => Instruction.noConfusion)]
  exact no_fault_iff

theorem Performs.loadRegisters_iff (h : m.Performs (.loadRegisters x) out) :
    out.result = .ok .executed ↔ m.index.toNat + x.index < Memory.size := by
  rw [h.executed_iff, perform_eq_executed_iff (fun _ => Instruction.noConfusion)]
  exact no_fault_iff

theorem Performs.storeDecimal_iff (h : m.Performs (.storeDecimal x) out) :
    out.result = .ok .executed ↔ m.index.toNat + 2 < Memory.size := by
  rw [h.executed_iff, perform_eq_executed_iff (fun _ => Instruction.noConfusion)]
  exact no_fault_iff

/-! ## What it leaves -/

theorem Performs.stored (h : m.Performs (.storeRegisters x) out)
    (hexecuted : out.result = .ok .executed) : m.Stored x out.machine := by
  have hfits := h.storeRegisters_iff.1 hexecuted
  have hlength : (m.registers.block 0 (x.index + 1)).length = x.index + 1 :=
    Registers.length_block (by omega)
  have hmachine : (m.perform (.storeRegisters x)).machine = _ := m.storeUpTo_machine x
  obtain ⟨-, hregisters, hmemory, hindex⟩ := h.data
  rw [hmachine] at hregisters hmemory hindex
  refine ⟨?_, fun a ha => ?_, hregisters, hindex⟩
  · rw [hmemory]
    exact Memory.mirrors_overlay m.memory m.registers hfits
  · rw [hmemory]
    exact Memory.read_overlay_of_outside (by omega)

theorem Performs.loaded (h : m.Performs (.loadRegisters x) out)
    (hexecuted : out.result = .ok .executed) : m.Loaded x out.machine := by
  have hfits := h.loadRegisters_iff.1 hexecuted
  have hlength : (m.memory.block m.index.toNat (x.index + 1)).length = x.index + 1 :=
    Memory.length_block hfits
  have hmachine : (m.perform (.loadRegisters x)).machine = _ := m.loadUpTo_machine x
  obtain ⟨-, hregisters, hmemory, hindex⟩ := h.data
  rw [hmachine] at hregisters hmemory hindex
  refine ⟨?_, fun r hr => ?_, hmemory, hindex⟩
  · rw [hregisters]
    exact Memory.mirrors_block m.memory m.registers hfits
  · rw [reg, hregisters]
    exact Registers.get_overlay_of_le _ (by omega)

theorem decimalDigits_spec (value : UInt8) :
    ∃ h t u, decimalDigits value = [h, t, u] ∧ h.toNat ≤ 9 ∧ t.toNat ≤ 9 ∧ u.toNat ≤ 9 ∧
      100 * h.toNat + 10 * t.toNat + u.toNat = value.toNat := by
  have hvalue := value.toNat_lt
  refine ⟨_, _, _, rfl, ?_⟩
  simp only [UInt8.toNat_ofNat']
  omega

theorem Performs.storedDigits (h : m.Performs (.storeDecimal x) out)
    (hexecuted : out.result = .ok .executed) : m.StoredDigits x out.machine := by
  have hfits := h.storeDecimal_iff.1 hexecuted
  obtain ⟨hundreds, tens, ones, hdigits, hh, ht, hu, hsum⟩ := decimalDigits_spec (m.reg x)
  have hmachine : (m.perform (.storeDecimal x)).machine = _ := m.store_machine _
  obtain ⟨-, hregisters, hmemory, hindex⟩ := h.data
  rw [hmachine, hdigits] at hmemory
  rw [hmachine] at hregisters hindex
  have hlength : [hundreds, tens, ones].length = 3 := rfl
  have hread (i : Nat) (hi : i < [hundreds, tens, ones].length) :
      out.machine.memory.read (m.index.toNat + i) = .ok [hundreds, tens, ones][i] := by
    rw [hmemory]
    exact Memory.read_overlay_add hi (by omega)
  refine ⟨⟨hundreds, tens, ones, hh, ht, hu, hsum, ?_, ?_, ?_⟩, fun a ha => ?_, hregisters, hindex⟩
  · exact hread 0 (by simp)
  · exact hread 1 (by simp)
  · exact hread 2 (by simp)
  · rw [hmemory]
    exact Memory.read_overlay_of_outside (by rw [hlength]; omega)

/-! ## One transfer after the other -/

/-- The second machine points to the same cells and finds the same `V0` to `Vx` there. -/
structure SameBlock (m : Machine) (x : Register) (m' : Machine) : Prop where
  index : m'.index = m.index
  cells : ∀ r : Register, r.index ≤ x.index →
    m'.memory.read (m.index.toNat + r.index) = m.memory.read (m.index.toNat + r.index)

theorem sameBlock_registers (m : Machine) (x : Register) (regs : Registers) :
    m.SameBlock x { m with registers := regs } :=
  ⟨rfl, fun _ _ => rfl⟩

/-- The first registers up to `Vx` are those of one machine, the others those of another. -/
structure Restored (m : Machine) (x : Register) (m' m'' : Machine) : Prop where
  first : ∀ r : Register, r.index ≤ x.index → m''.reg r = m.reg r
  others : ∀ r : Register, x.index < r.index → m''.reg r = m'.reg r

/-- What was stored is mirrored wherever the cells are the same. -/
theorem Stored.mirrors (hstored : m.Stored x out.machine) (hblock : out.machine.SameBlock x m') :
    m'.memory.Mirrors m'.index.toNat m.registers x := by
  intro r hr
  rw [hblock.index, hblock.cells r hr, hstored.index]
  exact hstored.cells r hr

/-- Loading what is mirrored restores it. -/
theorem Performs.restores (h : m'.Performs (.loadRegisters x) out)
    (hmirrors : m'.memory.Mirrors m'.index.toNat m.registers x) :
    out.result = .ok .executed ∧ m.Restored x m' out.machine := by
  have hexecuted := h.loadRegisters_iff.2 hmirrors.fits
  have hloaded := h.loaded hexecuted
  exact ⟨hexecuted, fun r hr => hmirrors.get_eq hloaded.registers hr, hloaded.others⟩

/-- Storing what is mirrored already changes nothing. -/
theorem Performs.keeps (h : m.Performs (.storeRegisters x) out)
    (hmirrors : m.memory.Mirrors m.index.toNat m.registers x) :
    out.result = .ok .executed ∧ out.machine.memory = m.memory := by
  have hexecuted := h.storeRegisters_iff.2 hmirrors.fits
  have hstored := h.stored hexecuted
  refine ⟨hexecuted, Memory.ext_read fun a => ?_⟩
  by_cases ha : m.index.toNat ≤ a ∧ a ≤ m.index.toNat + x.index
  · -- The cell is the one of a register, which it held before.
    obtain ⟨i, rfl⟩ := Nat.exists_eq_add_of_le ha.1
    have hi : i < 16 := by omega
    have hr : (⟨i, hi⟩ : Fin 16) ≤ x.index := Nat.le_of_add_le_add_left ha.2
    exact (hstored.cells ⟨⟨i, hi⟩⟩ hr).trans (hmirrors ⟨⟨i, hi⟩⟩ hr).symm
  · exact hstored.others a (by omega)

/-- **Transfers are inverse to each other.** What is stored is exact and comes back when the same
cells are loaded, whatever the registers are by then. What is loaded is exact, and storing it right
away changes no cell. The digits stored are those of the register. -/
theorem transfers_are_inverse (m : Machine) (x : Register) :
    (∀ out, m.Performs (.storeRegisters x) out → out.result = .ok .executed →
      m.Stored x out.machine ∧
        ∀ m' out', out.machine.SameBlock x m' → m'.Performs (.loadRegisters x) out' →
          out'.result = .ok .executed ∧ m.Restored x m' out'.machine) ∧
    (∀ out, m.Performs (.loadRegisters x) out → out.result = .ok .executed →
      m.Loaded x out.machine ∧
        ∀ out', out.machine.Performs (.storeRegisters x) out' →
          out'.result = .ok .executed ∧ out'.machine.memory = out.machine.memory) ∧
    ∀ out, m.Performs (.storeDecimal x) out → out.result = .ok .executed →
      m.StoredDigits x out.machine := by
  refine ⟨fun out h hexecuted => ?stores, fun out h hexecuted => ?loads, fun out h hexecuted => ?_⟩
  case stores =>
    have hstored := h.stored hexecuted
    exact ⟨hstored, fun m' out' hblock h' => h'.restores (hstored.mirrors hblock)⟩
  case loads =>
    have hloaded := h.loaded hexecuted
    refine ⟨hloaded, fun out' h' => h'.keeps ?_⟩
    rw [hloaded.memory, hloaded.index]
    exact hloaded.registers
  exact h.storedDigits hexecuted

/-- A machine whose program stores `V0` over itself. -/
def copying : Machine :=
  { fresh (.ofSeed 0 0 0 0) with
    memory := Memory.fresh.load #[0xF0, 0x55]
    registers := (Registers.zero.set .v0 7).set .vF 9
    index := 0x200 }

theorem performs_copying : copying.Performs (.storeRegisters .v0) copying.step := by
  have hholds : copying.Holds ⟨0xF055⟩ :=
    holds_of_load (i := 0) rfl (by decide) (by decide) (by decide) (by decide)
  have hspells : Opcode.Spells ⟨0xF055⟩ (.storeRegisters .v0) :=
    (by decide : 0xF055 = 0xF * 0x1000 + 0 * 0x100 + 0x55)
  exact .step hholds hspells

/-- After the registers were cleared, `V0` comes back and `VF` does not, though the program is
gone. -/
theorem transfers_are_inverse_copying :
    copying.step.result = .ok .executed ∧ copying.step.machine.memory.read 0x200 = .ok 7 ∧
      (({ copying.step.machine with registers := .zero }).execute
        (.loadRegisters .v0)).machine.reg .v0 = 7 ∧
      (({ copying.step.machine with registers := .zero }).execute
        (.loadRegisters .v0)).machine.reg .vF = 0 := by
  have hexecuted := performs_copying.storeRegisters_iff.2 (by decide)
  obtain ⟨hstores, -, -⟩ := transfers_are_inverse copying .v0
  obtain ⟨hstored, hrestores⟩ := hstores _ performs_copying hexecuted
  have hblock := copying.step.machine.sameBlock_registers .v0 .zero
  obtain ⟨-, hrestored⟩ := hrestores _ _ hblock .asked
  exact ⟨hexecuted, hstored.cells .v0 (Nat.le_refl _), hrestored.first .v0 (Nat.le_refl _),
    hrestored.others .vF (by decide)⟩

end Machine

end Chip8
