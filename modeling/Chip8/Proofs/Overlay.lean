import Chip8.Proofs.Memory

/-!
# What a loop over cells leaves behind

Storing, loading and drawing go through consecutive places one by one and stop at the first that
does not exist. `overlay v start l` says in one equation what such a loop leaves, also when it was
cut short: the elements of `l` stand in `v` from `start` on, as far as there are places, and all
other places are as before (`writeMany_fst`, `storeAll_fst`, `loadAll_fst`).
-/

namespace Chip8

variable {α : Type} {n : Nat}

/-- The vector with the elements of a list in place of its own from an index on. -/
def overlay (v : Vector α n) (start : Nat) (l : List α) : Vector α n :=
  .ofFn fun i => if start ≤ i.val then l.getD (i.val - start) v[i] else v[i]

theorem getElem_overlay (v : Vector α n) (start : Nat) (l : List α) {i : Nat} (hi : i < n) :
    (overlay v start l)[i] = if start ≤ i then l.getD (i - start) v[i] else v[i] := by
  simp [overlay]

@[simp] theorem overlay_nil (v : Vector α n) (start : Nat) : overlay v start [] = v := by
  apply Vector.ext
  intro i hi
  simp [getElem_overlay]

theorem overlay_of_le {v : Vector α n} {start : Nat} (l : List α) (h : n ≤ start) :
    overlay v start l = v := by
  apply Vector.ext
  intro i hi
  rw [getElem_overlay, if_neg (by omega)]

theorem getElem_overlay_add {v : Vector α n} {start i : Nat} {l : List α} (hi : i < l.length)
    (h : start + i < n) : (overlay v start l)[start + i] = l[i] := by
  rw [getElem_overlay, if_pos (Nat.le_add_right start i), Nat.add_sub_cancel_left,
    List.getD_eq_getElem?_getD, List.getElem?_eq_getElem hi, Option.getD_some]

theorem getElem_overlay_of_outside {v : Vector α n} {start i : Nat} {l : List α} (hi : i < n)
    (h : i < start ∨ start + l.length ≤ i) : (overlay v start l)[i] = v[i] := by
  rw [getElem_overlay]
  split
  · have hnone : l.length ≤ i - start := by omega
    rw [List.getD_eq_getElem?_getD, List.getElem?_eq_none hnone, Option.getD_none]
  · rfl

theorem overlay_cons {v : Vector α n} {start : Nat} (a : α) (l : List α) (h : start < n) :
    overlay v start (a :: l) = overlay (v.set start a h) (start + 1) l := by
  apply Vector.ext
  intro i hi
  rw [getElem_overlay, getElem_overlay]
  rcases Nat.lt_trichotomy i start with hlt | rfl | hgt
  · rw [if_neg (by omega), if_neg (by omega), Vector.getElem_set_ne _ _ (by omega)]
  · rw [if_pos (Nat.le_refl i), if_neg (by omega), Vector.getElem_set_self, Nat.sub_self,
      List.getD_cons_zero]
  · have hnext : i - start = i - (start + 1) + 1 := by omega
    rw [if_pos (by omega), if_pos (by omega), Vector.getElem_set_ne _ _ (by omega), hnext,
      List.getD_cons_succ]

/-! ## Memory -/

namespace Memory

/-- The memory with bytes in place of its own from an address on. -/
def overlay (memory : Memory) (address : Nat) (bytes : List UInt8) : Memory :=
  ⟨Chip8.overlay memory.cells address bytes⟩

theorem overlay_nil (memory : Memory) (address : Nat) : memory.overlay address [] = memory := by
  rw [overlay, Chip8.overlay_nil]

theorem overlay_of_le {memory : Memory} {address : Nat} (bytes : List UInt8)
    (h : size ≤ address) : memory.overlay address bytes = memory :=
  congrArg Memory.mk (Chip8.overlay_of_le bytes h)

theorem overlay_cons {memory : Memory} {address : Nat} (byte : UInt8) (bytes : List UInt8)
    (h : address < size) :
    memory.overlay address (byte :: bytes) =
      (memory.set address byte h).overlay (address + 1) bytes :=
  congrArg Memory.mk (Chip8.overlay_cons byte bytes h)

/-- Stored bytes stand in memory as far as there are cells. -/
theorem writeMany_fst {memory : Memory} {address : Nat} {bytes : List UInt8} :
    (memory.writeMany address bytes).1 = memory.overlay address bytes := by
  induction bytes generalizing memory address with
  | nil => rw [writeMany, overlay_nil]
  | cons byte bytes ih =>
    rw [writeMany]
    split
    · next h => rw [ih, overlay_cons byte bytes h]
    · next h => rw [overlay_of_le _ (Nat.not_lt.1 h)]

theorem read_overlay_add {memory : Memory} {address i : Nat} {bytes : List UInt8}
    (hi : i < bytes.length) (h : address + i < size) :
    (memory.overlay address bytes).read (address + i) = .ok bytes[i] := by
  rw [read_of_lt h]
  exact congrArg Except.ok (getElem_overlay_add hi h)

theorem read_overlay_of_outside {memory : Memory} {address a : Nat} {bytes : List UInt8}
    (h : a < address ∨ address + bytes.length ≤ a) :
    (memory.overlay address bytes).read a = memory.read a := by
  rcases Nat.lt_or_ge a size with ha | ha
  · rw [read_of_lt ha, read_of_lt ha]
    exact congrArg Except.ok (getElem_overlay_of_outside ha h)
  · rw [read_of_le ha, read_of_le ha]

@[simp] theorem length_toList (memory : Memory) : memory.toList.length = size :=
  memory.cells.length_toList

def block (memory : Memory) (address count : Nat) : List UInt8 :=
  (memory.toList.drop address).take count

theorem block_zero (memory : Memory) (address : Nat) : memory.block address 0 = [] :=
  List.take_zero

theorem block_of_le {memory : Memory} {address : Nat} (count : Nat) (h : size ≤ address) :
    memory.block address count = [] := by
  rw [block, List.drop_eq_nil_of_le (by rw [length_toList]; exact h), List.take_nil]

theorem block_succ {memory : Memory} {address : Nat} (count : Nat) (h : address < size) :
    memory.block address (count + 1) =
      memory.cells[address] :: memory.block (address + 1) count := by
  have hlength : address < memory.toList.length := by rwa [length_toList]
  rw [block, List.drop_eq_getElem_cons hlength, List.take_succ_cons]
  rfl

theorem length_block {memory : Memory} {address count : Nat} (h : address + count ≤ size) :
    (memory.block address count).length = count := by
  have hlength : (memory.toList.drop address).length = size - address := by
    rw [List.length_drop, length_toList]
  rw [block, List.length_take]
  omega

theorem getElem_block {memory : Memory} {address count i : Nat}
    (hi : i < (memory.block address count).length) (h : address + i < size) :
    (memory.block address count)[i] = memory.cells[address + i] := by
  simp only [block, toList, List.getElem_take, List.getElem_drop, Vector.getElem_toList]
  rfl

end Memory

/-! ## Registers -/

namespace Registers

/-- The registers with bytes in place of their values from an index on. -/
def overlay (regs : Registers) (start : Nat) (bytes : List UInt8) : Registers :=
  ⟨Chip8.overlay regs.values start bytes⟩

theorem overlay_nil (regs : Registers) (start : Nat) : regs.overlay start [] = regs := by
  rw [overlay, Chip8.overlay_nil]

theorem overlay_cons {regs : Registers} {start : Nat} (byte : UInt8) (bytes : List UInt8)
    (h : start < 16) :
    regs.overlay start (byte :: bytes) =
      (regs.set ⟨⟨start, h⟩⟩ byte).overlay (start + 1) bytes :=
  congrArg Registers.mk (Chip8.overlay_cons byte bytes h)

theorem get_overlay_of_lt (regs : Registers) {bytes : List UInt8} {r : Register}
    (h : r.index.val < bytes.length) : (regs.overlay 0 bytes).get r = bytes[r.index.val] := by
  have hplace : 0 + r.index.val < 16 := by omega
  have hoverlay := getElem_overlay_add (v := regs.values) h hplace
  simp only [Nat.zero_add] at hoverlay
  exact hoverlay

theorem get_overlay_of_le (regs : Registers) {bytes : List UInt8} {r : Register}
    (h : bytes.length ≤ r.index.val) : (regs.overlay 0 bytes).get r = regs.get r :=
  getElem_overlay_of_outside r.index.isLt (.inr (by omega))

@[simp] theorem length_toList (regs : Registers) : regs.toList.length = 16 :=
  regs.values.length_toList

def block (regs : Registers) (start count : Nat) : List UInt8 :=
  (regs.toList.drop start).take count

theorem block_zero (regs : Registers) (start : Nat) : regs.block start 0 = [] :=
  List.take_zero

theorem block_succ {regs : Registers} {start : Nat} (count : Nat) (h : start < 16) :
    regs.block start (count + 1) = regs.get ⟨⟨start, h⟩⟩ :: regs.block (start + 1) count := by
  have hlength : start < regs.toList.length := by rwa [length_toList]
  rw [block, List.drop_eq_getElem_cons hlength, List.take_succ_cons]
  rfl

theorem length_block {regs : Registers} {start count : Nat} (h : start + count ≤ 16) :
    (regs.block start count).length = count := by
  have hlength : (regs.toList.drop start).length = 16 - start := by
    rw [List.length_drop, length_toList]
  rw [block, List.length_take]
  omega

theorem getElem_block {regs : Registers} {count : Nat} {r : Register}
    (h : r.index.val < (regs.block 0 count).length) :
    (regs.block 0 count)[r.index.val] = regs.get r := by
  simp only [block, toList, List.getElem_take, List.getElem_drop, Vector.getElem_toList,
    Nat.zero_add]
  rfl

end Registers

/-! ## Blocks of registers -/

namespace Machine

/-- Stored registers stand in memory as far as there are cells. -/
theorem storeAll_fst {regs : Registers} {memory : Memory} {address start count : Nat}
    (h : start + count ≤ 16) :
    (storeAll regs memory address (List.range' start count)).1 =
      memory.overlay address (regs.block start count) := by
  induction count generalizing memory address start with
  | zero => rw [List.range'_zero, storeAll, Registers.block_zero, Memory.overlay_nil]
  | succ count ih =>
    have hstart : start < 16 := by omega
    have hrest : start + 1 + count ≤ 16 := by omega
    rw [List.range'_succ, storeAll, Registers.peek, dif_pos hstart,
      Registers.block_succ count hstart]
    rcases Nat.lt_or_ge address Memory.size with haddress | haddress
    · simp only [Memory.write_of_lt haddress, Memory.overlay_cons _ _ haddress, ih hrest]
    · simp only [Memory.write_of_le haddress, Memory.overlay_of_le _ haddress]

/-- Loaded registers hold the cells as far as there are any, and the others keep their values. -/
theorem loadAll_fst {memory : Memory} {regs : Registers} {address start count : Nat}
    (h : start + count ≤ 16) :
    (loadAll memory regs address (List.range' start count)).1 =
      regs.overlay start (memory.block address count) := by
  induction count generalizing regs address start with
  | zero => rw [List.range'_zero, loadAll, Memory.block_zero, Registers.overlay_nil]
  | succ count ih =>
    have hstart : start < 16 := by omega
    have hrest : start + 1 + count ≤ 16 := by omega
    rw [List.range'_succ, loadAll]
    rcases Nat.lt_or_ge address Memory.size with haddress | haddress
    · simp only [Memory.read_of_lt haddress, Registers.poke, dif_pos hstart, ih hrest,
        Memory.block_succ count haddress, Registers.overlay_cons _ _ hstart]
    · simp only [Memory.read_of_le haddress, Memory.block_of_le _ haddress,
        Registers.overlay_nil]

end Machine

theorem Register.upTo_eq (x : Register) : x.upTo = List.range' 0 (x.index + 1) :=
  List.range_eq_range'

end Chip8
