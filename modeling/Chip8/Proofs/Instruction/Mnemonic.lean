import Chip8.Instruction.Mnemonic
import Chip8.Proofs.Numeral

/-!
# Mnemonics are clean

Words and mnemonics have no brace and no newline, so whatever the machine writes into its trace
can stand in a save state.
-/

namespace Chip8

@[simp] theorem Register.clean_name (r : Register) : Text.Clean r.name.toList := by
  simp [name]

theorem Opcode.clean_text (op : Opcode) : Text.Clean op.text.toList := by
  simp [text]

namespace Instruction

@[simp] theorem clean_addressOperand (a : UInt16) : Text.Clean (addressOperand a).toList := by
  simp [addressOperand]

@[simp] theorem clean_byteOperand (b : UInt8) : Text.Clean (byteOperand b).toList := by
  simp [byteOperand]

@[simp] theorem clean_pair {first second : String} :
    Text.Clean (pair first second).toList ↔
      Text.Clean first.toList ∧ Text.Clean second.toList := by
  simp [pair]

theorem clean_mnemonic (ins : Instruction) : Text.Clean ins.mnemonic.toList := by
  cases ins <;> simp [mnemonic]

end Instruction

end Chip8
