import Chip8.Registers

/-!
# Reading back what was written to a register

A register holds what was written to it last, and writing to one register leaves the others.
-/

namespace Chip8.Registers

theorem get_set (regs : Registers) (r r' : Register) (value : UInt8) :
    (regs.set r value).get r' = if r = r' then value else regs.get r' := by
  cases r
  cases r'
  simp only [get, set, Fin.getElem_fin, Vector.getElem_set, Fin.val_inj, Register.mk.injEq]

@[simp] theorem get_set_self (regs : Registers) (r : Register) (value : UInt8) :
    (regs.set r value).get r = value := by
  rw [get_set, if_pos rfl]

theorem get_set_of_ne (regs : Registers) {r r' : Register} (value : UInt8) (h : r' ≠ r) :
    (regs.set r value).get r' = regs.get r' := by
  rw [get_set, if_neg h.symm]

@[simp] theorem set_set (regs : Registers) (r : Register) (value value' : UInt8) :
    (regs.set r value).set r value' = regs.set r value' := by
  simp [set]

theorem ext_get {regs regs' : Registers} (h : ∀ r, regs'.get r = regs.get r) : regs' = regs := by
  refine congrArg Registers.mk (Vector.ext fun i hi => ?_)
  exact h ⟨⟨i, hi⟩⟩

end Chip8.Registers
