import Chip8.Proofs.Instruction.Forms
import Chip8.Proofs.Instruction.Mnemonic

/-!
# Mnemonics are read back

A mnemonic is a line of words: the name of an operation and its operands. An operand is read by
its first character: a register by `V`, a hexadecimal number by `#`, a count by a digit, and any
other operand is the name of a place, such as `I` or `DT`. Many instructions share the name of
their operation, so `assemble` tells them apart by the kinds of their operands.

**Theorem (`ofText_mnemonic`).** Every instruction is assembled from its own mnemonic, so no two
have the same (`mnemonic_inj`).
-/

namespace Chip8

namespace Text

/-! ## Words -/

/-- The words of a line, which stand between blanks, without their commas. -/
def splitWords (text : List Char) : List (List Char) :=
  (text.filter (· ≠ ',')).splitOn ' '

def IsWord (word : List Char) : Prop :=
  ∀ c ∈ word, c ≠ ' ' ∧ c ≠ ','

@[simp] theorem splitWords_nil : splitWords [] = [[]] := by
  simp [splitWords]

@[simp] theorem splitWords_blank (text : List Char) :
    splitWords (' ' :: text) = [] :: splitWords text := by
  simp [splitWords, List.splitOn_eq_splitOnP, List.splitOnP_cons_eq_if_modifyHead]

@[simp] theorem splitWords_comma (text : List Char) :
    splitWords (',' :: text) = splitWords text := by
  simp [splitWords]

theorem splitWords_cons {c : Char} (h : c ≠ ' ' ∧ c ≠ ',') (text : List Char) :
    splitWords (c :: text) = (splitWords text).modifyHead (c :: ·) := by
  simp [splitWords, List.splitOn_eq_splitOnP, List.splitOnP_cons_eq_if_modifyHead, h.1, h.2]

/-- A word at the front belongs to the first word. -/
theorem splitWords_append {word : List Char} (h : IsWord word) (text : List Char) :
    splitWords (word ++ text) = (splitWords text).modifyHead (word ++ ·) := by
  induction word with
  | nil => exact (congrFun List.modifyHead_id (splitWords text)).symm
  | cons c word ih =>
    obtain ⟨hc, hword⟩ := List.forall_mem_cons.1 h
    rw [List.cons_append, splitWords_cons hc, ih hword, List.modifyHead_modifyHead]
    rfl

theorem splitWords_word {word : List Char} (h : IsWord word) : splitWords word = [word] := by
  have hsplit := splitWords_append h []
  rwa [List.append_nil, splitWords_nil, List.modifyHead_cons, List.append_nil] at hsplit

end Text

/-! ## Operands -/

inductive Operand where
  | register (r : Register)
  /-- An address or a byte. -/
  | number (n : Nat)
  | count (n : Nat)
  /-- A part of the machine by its name. -/
  | place (name : String)

namespace Operand

def read (text : List Char) : Operand :=
  match text with
  | 'V' :: digits => .register (.ofNibble (Numeral.hexValue digits))
  | '#' :: digits => .number (Numeral.hexValue digits)
  | _ =>
    if text.all Char.isDigit then .count (Nat.ofDigitChars 10 text 0)
    else .place (String.ofList text)

/-! ## Operands are words -/

theorem toList_name (r : Register) : r.name.toList = 'V' :: Numeral.hex 1 r.index := by
  simp [Register.name, Numeral.hexText]

theorem toList_byteOperand (b : UInt8) :
    (Instruction.byteOperand b).toList = '#' :: Numeral.hex 2 b.toNat := by
  simp [Instruction.byteOperand, Numeral.hexText]

theorem toList_addressOperand (a : UInt16) :
    (Instruction.addressOperand a).toList = '#' :: Numeral.hex 3 a.toNat := by
  simp [Instruction.addressOperand, Numeral.hexText]

theorem isWord_mark {mark : Char} (h : mark ≠ ' ' ∧ mark ≠ ',') (width n : Nat) :
    Text.IsWord (mark :: Numeral.hex width n) := by
  have halphabet : ∀ c ∈ Numeral.hexAlphabet, c ≠ ' ' ∧ c ≠ ',' := by
    simp [Numeral.hexAlphabet]
  exact List.forall_mem_cons.2
    ⟨h, fun c hc => halphabet c (Numeral.mem_hexAlphabet_of_mem_hex hc)⟩

@[simp] theorem isWord_name (r : Register) : Text.IsWord r.name.toList := by
  rw [toList_name]
  exact isWord_mark (by decide) 1 r.index

@[simp] theorem isWord_byteOperand (b : UInt8) :
    Text.IsWord (Instruction.byteOperand b).toList := by
  rw [toList_byteOperand]
  exact isWord_mark (by decide) 2 b.toNat

@[simp] theorem isWord_addressOperand (a : UInt16) :
    Text.IsWord (Instruction.addressOperand a).toList := by
  rw [toList_addressOperand]
  exact isWord_mark (by decide) 3 a.toNat

@[simp] theorem isWord_decimalText (n : Nat) : Text.IsWord (Numeral.decimalText n).toList := by
  rw [Numeral.decimalText, String.toList_ofList]
  intro c hc
  have hdigit := Numeral.isDigit_of_mem_decimal hc
  constructor <;> rintro rfl <;> exact absurd hdigit (by decide)

/-! ## Operands are read back -/

@[simp] theorem read_name (r : Register) : read r.name.toList = .register r := by
  have hregister : Register.ofNibble r.index = r :=
    Register.eq_of_val_eq (Nat.mod_eq_of_lt r.index.isLt)
  rw [toList_name, read, Numeral.hexValue_hex, hregister]

@[simp] theorem read_byteOperand (b : UInt8) :
    read (Instruction.byteOperand b).toList = .number b.toNat := by
  rw [toList_byteOperand, read, Numeral.hexValue_hex]

@[simp] theorem read_addressOperand (a : UInt16) :
    read (Instruction.addressOperand a).toList = .number a.toNat := by
  rw [toList_addressOperand, read, Numeral.hexValue_hex]

@[simp] theorem read_decimalText (n : Nat) : read (Numeral.decimalText n).toList = .count n := by
  have hdigits (c : Char) (hc : c ∈ Numeral.decimal n) := Numeral.isDigit_of_mem_decimal hc
  rw [Numeral.decimalText, String.toList_ofList]
  unfold read
  split
  · next hmark => exact absurd (hdigits 'V' (hmark ▸ List.mem_cons_self)) (by decide)
  · next hmark => exact absurd (hdigits '#' (hmark ▸ List.mem_cons_self)) (by decide)
  · rw [if_pos (List.all_eq_true.2 hdigits), Numeral.decimal, Nat.ofDigitChars_ten_toDigits]

/-- The name of a register that is written out is read like any other. -/
@[simp] theorem read_v0 : read ['V', '0'] = .register .v0 := rfl

/-- An operand that starts with neither a mark nor a digit is the name of a place. -/
theorem read_place {c : Char} (h : c ≠ 'V' ∧ c ≠ '#' ∧ c.isDigit = false) (text : List Char) :
    read (c :: text) = .place (String.ofList (c :: text)) := by
  simp [read, h]

end Operand

namespace Instruction

/-! ## Lines -/

/-- The instruction with an operation and operands. Where the operation leaves it open, a place
decides. -/
def assemble (operation : String) : List Operand → Option Instruction
  | [] => [("CLS", clear), ("RET", ret)].lookup operation
  | [.register x] =>
    [("SHR", shiftRight x), ("SHL", shiftLeft x), ("SKP", skipIfKey x),
      ("SKNP", skipUnlessKey x)].lookup operation
  | [.number n] => [("JP", jump (.ofNat n)), ("CALL", call (.ofNat n))].lookup operation
  | [.register x, .number n] =>
    [("SE", skipIfByte x (.ofNat n)), ("SNE", skipUnlessByte x (.ofNat n)),
      ("LD", setByte x (.ofNat n)), ("ADD", addByte x (.ofNat n)), ("RND", random x (.ofNat n)),
      ("JP", jumpOffset (.ofNat n))].lookup operation
  | [.register x, .register y] =>
    [("SE", skipIfSame x y), ("SNE", skipUnlessSame x y), ("LD", copy x y), ("OR", or x y),
      ("AND", and x y), ("XOR", xor x y), ("ADD", add x y), ("SUB", sub x y),
      ("SUBN", subFrom x y)].lookup operation
  | [.register x, .place place] =>
    [("LD DT", getDelay x), ("LD K", awaitKey x), ("LD [I]", loadRegisters x)].lookup
      (operation ++ " " ++ place)
  | [.place place, .register x] =>
    [("LD DT", setDelay x), ("LD ST", setSound x), ("LD F", glyph x), ("LD B", storeDecimal x),
      ("LD [I]", storeRegisters x), ("ADD I", addIndex x)].lookup (operation ++ " " ++ place)
  | [.place place, .number n] =>
    [("LD I", setIndex (.ofNat n))].lookup (operation ++ " " ++ place)
  | [.register x, .register y, .count n] => [("DRW", draw x y (.ofNat n))].lookup operation
  | _ => none

def ofText (text : List Char) : Option Instruction :=
  match Text.splitWords text with
  | operation :: operands => assemble (String.ofList operation) (operands.map Operand.read)
  | [] => none

/-- **Every instruction is assembled from its own mnemonic.** -/
theorem ofText_mnemonic (ins : Instruction) : ofText ins.mnemonic.toList = some ins := by
  -- Each line falls apart into an operation and operands, from which the instruction is made.
  cases ins <;>
    simp [ofText, mnemonic, pair, Text.splitWords_cons, Text.splitWords_append,
      Text.splitWords_word, Operand.read_place, assemble, List.lookup_cons]

theorem mnemonic_inj {ins ins' : Instruction} : ins.mnemonic = ins'.mnemonic ↔ ins = ins' := by
  constructor
  · intro h
    have hread : some ins = some ins' := by
      rw [← ofText_mnemonic ins, h, ofText_mnemonic]
    exact Option.some.inj hread
  · rintro rfl
    rfl

end Instruction

end Chip8
