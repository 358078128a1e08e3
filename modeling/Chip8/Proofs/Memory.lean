import Chip8.Machine.Execute
import Chip8.Proofs.Except

/-!
# Reading and writing memory

A single cell, a sprite and a block of registers are read and written cell by cell. Each of these
loops fails under the same condition and with the same report (`Overrun`): some cell is missing, and
the report names the first one that is.
-/

namespace Chip8

namespace Memory

/-- Of the `count` cells from `address` on some is missing, and `e` reports the first. -/
def Overrun (address count : Nat) (e : AddressError) : Prop :=
  0 < count ∧ size < address + count ∧ e = outside (max address size)

@[simp] theorem not_overrun_zero {address : Nat} {e : AddressError} : ¬Overrun address 0 e :=
  fun h => absurd h.1 (by decide)

theorem overrun_succ_of_le {address count : Nat} {e : AddressError} (h : size ≤ address) :
    Overrun address (count + 1) e ↔ outside address = e := by
  rw [Overrun, Nat.max_eq_left h]
  constructor
  · intro hfacts
    obtain ⟨-, -, rfl⟩ := hfacts
    rfl
  · rintro rfl
    exact ⟨by omega, by omega, rfl⟩

theorem overrun_succ_of_lt {address count : Nat} {e : AddressError} (h : address < size) :
    Overrun address (count + 1) e ↔ Overrun (address + 1) count e := by
  have hmax : max (address + 1) size = max address size := by omega
  rw [Overrun, Overrun, hmax]
  constructor
  · intro hfacts
    obtain ⟨-, hsize, rfl⟩ := hfacts
    exact ⟨by omega, by omega, rfl⟩
  · intro hfacts
    obtain ⟨-, hsize, rfl⟩ := hfacts
    exact ⟨by omega, by omega, rfl⟩

/-! ## Single cells -/

theorem read_of_lt {memory : Memory} {address : Nat} (h : address < size) :
    memory.read address = .ok memory.cells[address] := by
  rw [read, dif_pos h]

theorem read_of_le {memory : Memory} {address : Nat} (h : size ≤ address) :
    memory.read address = .error (outside address) := by
  rw [read, dif_neg (Nat.not_lt.2 h)]

theorem lt_of_read {memory : Memory} {address : Nat} {byte : UInt8}
    (h : memory.read address = .ok byte) : address < size := by
  rcases Nat.lt_or_ge address size with hlt | hle
  · exact hlt
  · rw [read_of_le hle] at h
    cases h

theorem ext_read {memory memory' : Memory} (h : ∀ a, memory'.read a = memory.read a) :
    memory' = memory := by
  refine congrArg Memory.mk (Vector.ext fun a ha => ?_)
  have hread := h a
  rw [read_of_lt ha, read_of_lt ha] at hread
  exact Except.ok.inj hread

theorem write_of_lt {memory : Memory} {address : Nat} {byte : UInt8} (h : address < size) :
    memory.write address byte = .ok (memory.set address byte h) := by
  rw [write, dif_pos h]

theorem write_of_le {memory : Memory} {address : Nat} {byte : UInt8} (h : size ≤ address) :
    memory.write address byte = .error (outside address) := by
  rw [write, dif_neg (Nat.not_lt.2 h)]

/-! ## Programs -/

/-- A program stands in memory byte by byte from the start of the program area on. -/
theorem getElem_load {memory : Memory} {program : Array UInt8} {i : Nat}
    (h : i < program.size) (hfit : programStart + i < 4095) :
    (memory.load program).cells[programStart + i] = program[i] := by
  simp [load, h]

section

variable {memory : Memory} {program : Array UInt8} {a : Nat}

theorem getElem_clear (h : a < 4095) :
    memory.clear.cells[a] = if a < 0x200 then memory.cells[a] else 0 := by
  simp only [clear, Vector.getElem_ofFn]
  rfl

theorem getElem_load_eq (h : a < 4095) :
    (memory.load program).cells[a] =
      if 0x200 ≤ a then program.getD (a - 0x200) memory.cells[a] else memory.cells[a] := by
  simp [load, programStart]

theorem read_clear_of_lt (h : a < 0x200) : memory.clear.read a = memory.read a := by
  have hcell : a < size := Nat.lt_trans h (by decide)
  rw [read_of_lt hcell, read_of_lt hcell, getElem_clear hcell, if_pos h]

theorem read_clear_of_le (h : 0x200 ≤ a) (hcell : a < size) : memory.clear.read a = .ok 0 := by
  rw [read_of_lt hcell, getElem_clear hcell, if_neg (Nat.not_lt.2 h)]

theorem read_load_of_lt (h : a < 0x200) : (memory.load program).read a = memory.read a := by
  have hcell : a < size := Nat.lt_trans h (by decide)
  rw [read_of_lt hcell, read_of_lt hcell, getElem_load_eq hcell, if_neg (Nat.not_le.2 h)]

theorem read_load_of_le (h : 0x200 + program.size ≤ a) (hcell : a < size) :
    (memory.load program).read a = memory.read a := by
  have hpast : program.size ≤ a - 0x200 := Nat.le_sub_of_add_le' h
  rw [read_of_lt hcell, read_of_lt hcell, getElem_load_eq hcell,
    if_pos (Nat.le_of_add_right_le h), Array.getD, dif_neg (Nat.not_lt.2 hpast)]

end

/-! ## Several cells -/

theorem readMany_eq_error_iff {memory : Memory} {address count : Nat} {e : AddressError} :
    memory.readMany address count = .error e ↔ Overrun address count e := by
  induction count generalizing address with
  | zero => simp [readMany]
  | succ count ih =>
    rw [readMany]
    rcases Nat.lt_or_ge address size with h | h
    · rw [overrun_succ_of_lt h, ← ih, read_of_lt h]
      cases memory.readMany (address + 1) count with
      | error e' => simp [bind, Except.bind]
      | ok rest => simp [bind, Except.bind, pure, Except.pure]
    · rw [overrun_succ_of_le h, read_of_le h]
      simp [bind, Except.bind]

theorem exists_readMany {memory : Memory} {address count : Nat} (h : address + count ≤ size) :
    ∃ bytes, memory.readMany address count = .ok bytes := by
  cases hread : memory.readMany address count with
  | ok bytes => exact ⟨bytes, rfl⟩
  | error e =>
    obtain ⟨-, hsize, -⟩ := readMany_eq_error_iff.1 hread
    exact absurd h (Nat.not_le.2 hsize)

theorem mem_readMany_iff {memory : Memory} {address count : Nat} {bytes : List UInt8}
    (h : memory.readMany address count = .ok bytes) {byte : UInt8} :
    byte ∈ bytes ↔ ∃ i < count, memory.read (address + i) = .ok byte := by
  induction count generalizing address bytes with
  | zero =>
    cases h
    simp
  | succ count ih =>
    obtain ⟨first, hfirst, h⟩ := bind_eq_ok_iff.1 h
    obtain ⟨rest, hrest, h⟩ := bind_eq_ok_iff.1 h
    cases h
    have hnext (i : Nat) : address + 1 + i = address + (i + 1) := Nat.add_right_comm address 1 i
    rw [List.mem_cons, ih hrest, Nat.exists_lt_succ_left, Nat.add_zero address, hfirst,
      ok_eq_ok_iff, @eq_comm _ first]
    simp only [hnext]

theorem writeMany_eq_some_iff {memory : Memory} {address : Nat} {bytes : List UInt8}
    {e : AddressError} :
    (memory.writeMany address bytes).2 = some e ↔ Overrun address bytes.length e := by
  induction bytes generalizing memory address with
  | nil => simp [writeMany]
  | cons byte bytes ih =>
    rw [writeMany, List.length_cons]
    split
    · next h => rw [overrun_succ_of_lt h, ih]
    · next h => rw [overrun_succ_of_le (Nat.not_lt.1 h), Option.some_inj]

end Memory

/-! ## Blocks of registers -/

namespace Machine

/-- Storing registers that exist fails exactly when a cell is missing. -/
theorem storeAll_eq_some_iff {regs : Registers} {memory : Memory} {address : Nat}
    {indices : List Nat} (hindices : ∀ r ∈ indices, r < 16) {fault : Fault} :
    (storeAll regs memory address indices).2 = some fault ↔
      ∃ e, Memory.Overrun address indices.length e ∧ fault = .address e := by
  induction indices generalizing memory address with
  | nil => simp [storeAll]
  | cons r indices ih =>
    obtain ⟨hr, hrest⟩ := List.forall_mem_cons.1 hindices
    rw [storeAll, Registers.peek, dif_pos hr, List.length_cons]
    rcases Nat.lt_or_ge address Memory.size with h | h
    · simp only [Memory.write_of_lt h, Memory.overrun_succ_of_lt h, ih hrest]
    · simp only [Memory.write_of_le h, Memory.overrun_succ_of_le h]
      simp [eq_comm]

theorem loadAll_eq_some_iff {memory : Memory} {regs : Registers} {address : Nat}
    {indices : List Nat} (hindices : ∀ r ∈ indices, r < 16) {fault : Fault} :
    (loadAll memory regs address indices).2 = some fault ↔
      ∃ e, Memory.Overrun address indices.length e ∧ fault = .address e := by
  induction indices generalizing regs address with
  | nil => simp [loadAll]
  | cons r indices ih =>
    obtain ⟨hr, hrest⟩ := List.forall_mem_cons.1 hindices
    rw [loadAll, List.length_cons]
    rcases Nat.lt_or_ge address Memory.size with h | h
    · simp only [Memory.read_of_lt h, Registers.poke, dif_pos hr, Memory.overrun_succ_of_lt h,
        ih hrest]
    · simp only [Memory.read_of_le h, Memory.overrun_succ_of_le h]
      simp [eq_comm]

end Machine

theorem Register.lt_of_mem_upTo {x : Register} {r : Nat} (h : r ∈ x.upTo) : r < 16 := by
  have hlt : r < x.index + 1 := by simpa [upTo] using h
  have hx := x.index.isLt
  omega

@[simp] theorem Register.length_upTo (x : Register) : x.upTo.length = x.index + 1 := by
  simp [upTo]

end Chip8
