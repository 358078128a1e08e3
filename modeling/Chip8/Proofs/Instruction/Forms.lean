import Chip8.Instruction.Code

/-!
# The forms of instructions

`Spells w ins` is the instruction table: it says which number `w` the word of each instruction
is, written with its operands in their places. The third nibble of the two shifts is ignored.

**Theorem (`decode_eq_ok_iff`).** A word is decoded as the instruction that it spells. A word that
spells none is refused (`decode_eq_error_iff`), as a machine code routine if its first nibble is
zero and as unknown otherwise.
-/

namespace Chip8

namespace Instruction

/-- The word with the number `w` stands for the instruction. -/
def Spells (w : Nat) : Instruction → Prop
  | .clear => w = 0x00E0
  | .ret => w = 0x00EE
  | .jump a => w = 0x1 * 0x1000 + a.toNat ∧ a.toNat < 0x1000
  | .call a => w = 0x2 * 0x1000 + a.toNat ∧ a.toNat < 0x1000
  | .skipIfByte x b => w = 0x3 * 0x1000 + x.index * 0x100 + b.toNat
  | .skipUnlessByte x b => w = 0x4 * 0x1000 + x.index * 0x100 + b.toNat
  | .skipIfSame x y => w = 0x5 * 0x1000 + x.index * 0x100 + y.index * 0x10 + 0x0
  | .setByte x b => w = 0x6 * 0x1000 + x.index * 0x100 + b.toNat
  | .addByte x b => w = 0x7 * 0x1000 + x.index * 0x100 + b.toNat
  | .copy x y => w = 0x8 * 0x1000 + x.index * 0x100 + y.index * 0x10 + 0x0
  | .or x y => w = 0x8 * 0x1000 + x.index * 0x100 + y.index * 0x10 + 0x1
  | .and x y => w = 0x8 * 0x1000 + x.index * 0x100 + y.index * 0x10 + 0x2
  | .xor x y => w = 0x8 * 0x1000 + x.index * 0x100 + y.index * 0x10 + 0x3
  | .add x y => w = 0x8 * 0x1000 + x.index * 0x100 + y.index * 0x10 + 0x4
  | .sub x y => w = 0x8 * 0x1000 + x.index * 0x100 + y.index * 0x10 + 0x5
  | .shiftRight x => ∃ y : Register, w = 0x8 * 0x1000 + x.index * 0x100 + y.index * 0x10 + 0x6
  | .subFrom x y => w = 0x8 * 0x1000 + x.index * 0x100 + y.index * 0x10 + 0x7
  | .shiftLeft x => ∃ y : Register, w = 0x8 * 0x1000 + x.index * 0x100 + y.index * 0x10 + 0xE
  | .skipUnlessSame x y => w = 0x9 * 0x1000 + x.index * 0x100 + y.index * 0x10 + 0x0
  | .setIndex a => w = 0xA * 0x1000 + a.toNat ∧ a.toNat < 0x1000
  | .jumpOffset a => w = 0xB * 0x1000 + a.toNat ∧ a.toNat < 0x1000
  | .random x b => w = 0xC * 0x1000 + x.index * 0x100 + b.toNat
  | .draw x y n => w = 0xD * 0x1000 + x.index * 0x100 + y.index * 0x10 + n.toNat ∧ n.toNat < 0x10
  | .skipIfKey x => w = 0xE * 0x1000 + x.index * 0x100 + 0x9E
  | .skipUnlessKey x => w = 0xE * 0x1000 + x.index * 0x100 + 0xA1
  | .getDelay x => w = 0xF * 0x1000 + x.index * 0x100 + 0x07
  | .awaitKey x => w = 0xF * 0x1000 + x.index * 0x100 + 0x0A
  | .setDelay x => w = 0xF * 0x1000 + x.index * 0x100 + 0x15
  | .setSound x => w = 0xF * 0x1000 + x.index * 0x100 + 0x18
  | .addIndex x => w = 0xF * 0x1000 + x.index * 0x100 + 0x1E
  | .glyph x => w = 0xF * 0x1000 + x.index * 0x100 + 0x29
  | .storeDecimal x => w = 0xF * 0x1000 + x.index * 0x100 + 0x33
  | .storeRegisters x => w = 0xF * 0x1000 + x.index * 0x100 + 0x55
  | .loadRegisters x => w = 0xF * 0x1000 + x.index * 0x100 + 0x65

end Instruction

theorem Register.eq_of_val_eq {r s : Register} (h : r.index.val = s.index.val) : r = s := by
  cases r
  cases s
  rw [Register.mk.injEq]
  exact Fin.ext h

namespace Opcode

/-- The word stands for the instruction. -/
def Spells (op : Opcode) (ins : Instruction) : Prop :=
  ins.Spells op.word.toNat

theorem toNat_ofBytes (high low : UInt8) :
    (ofBytes high low).word.toNat = high.toNat * 256 + low.toNat := by
  have hhigh := high.toNat_lt
  have hlow := low.toNat_lt
  rw [ofBytes, UInt16.toNat_ofNat']
  omega

theorem eq_of_toNat_eq {op op' : Opcode} (h : op.word.toNat = op'.word.toNat) : op = op' := by
  cases op
  cases op'
  rw [Opcode.mk.injEq]
  exact UInt16.toNat_inj.1 h

/-! ## Operands -/

theorem val_x (op : Opcode) : op.x.index.val = op.word.toNat / 256 % 16 := rfl

theorem val_y (op : Opcode) : op.y.index.val = op.word.toNat / 16 % 16 := rfl

theorem address_lt (op : Opcode) : op.address < 0x1000 :=
  Nat.mod_lt _ (by decide)

theorem byte_lt (op : Opcode) : op.byte < 0x100 :=
  Nat.mod_lt _ (by decide)

theorem nibble_lt (op : Opcode) : op.nibble < 0x10 :=
  Nat.mod_lt _ (by decide)

theorem toNat_address (op : Opcode) : (UInt16.ofNat op.address).toNat = op.address :=
  UInt16.toNat_ofNat_of_lt' (Nat.lt_trans op.address_lt (by decide))

theorem toNat_byte (op : Opcode) : (UInt8.ofNat op.byte).toNat = op.byte :=
  UInt8.toNat_ofNat_of_lt' op.byte_lt

theorem toNat_nibble (op : Opcode) : (UInt8.ofNat op.nibble).toNat = op.nibble :=
  UInt8.toNat_ofNat_of_lt' (Nat.lt_trans op.nibble_lt (by decide))

theorem family_lt (op : Opcode) : op.family < 16 := by
  have hlt := op.word.toNat_lt
  rw [family]
  omega

theorem word_eq_address (op : Opcode) :
    op.word.toNat = op.family * 0x1000 + op.address := by
  rw [address, family]
  omega

theorem word_eq_byte (op : Opcode) :
    op.word.toNat = op.family * 0x1000 + op.x.index * 0x100 + op.byte := by
  rw [val_x, byte, family]
  omega

theorem word_eq_pair (op : Opcode) :
    op.word.toNat =
      op.family * 0x1000 + op.x.index * 0x100 + op.y.index * 0x10 + op.nibble := by
  rw [val_x, val_y, nibble, family]
  omega

/-! ## What is decoded is spelled -/

theorem spells_of_decodeArithmetic {op : Opcode} {ins : Instruction} (hfamily : op.family = 0x8)
    (h : op.decodeArithmetic = .ok ins) : op.Spells ins := by
  have hword := op.word_eq_pair
  rw [decodeArithmetic] at h
  rw [Spells]
  split at h <;> cases h <;> simp only [Instruction.Spells, Nat.reduceMul]
  case h_7 => exact ⟨op.y, by omega⟩
  case h_9 => exact ⟨op.y, by omega⟩
  all_goals omega

theorem spells_of_decodeKey {op : Opcode} {ins : Instruction} (hfamily : op.family = 0xE)
    (h : op.decodeKey = .ok ins) : op.Spells ins := by
  have hword := op.word_eq_byte
  rw [decodeKey] at h
  rw [Spells]
  split at h <;> cases h <;> simp only [Instruction.Spells, Nat.reduceMul] <;> omega

theorem spells_of_decodeDevice {op : Opcode} {ins : Instruction} (hfamily : op.family = 0xF)
    (h : op.decodeDevice = .ok ins) : op.Spells ins := by
  have hword := op.word_eq_byte
  rw [decodeDevice] at h
  rw [Spells]
  split at h <;> cases h <;> simp only [Instruction.Spells, Nat.reduceMul] <;> omega

theorem spells_of_decode {op : Opcode} {ins : Instruction} (h : op.decode = .ok ins) :
    op.Spells ins := by
  have hfamily := op.family_lt
  have haddress := op.word_eq_address
  have hbyte := op.word_eq_byte
  have hpair := op.word_eq_pair
  have htail := op.address_lt
  have hlast := op.nibble_lt
  simp only [decode] at h
  split at h
  -- The families with their own tables.
  case h_9 => exact spells_of_decodeArithmetic ‹_› h
  case h_15 => exact spells_of_decodeKey ‹_› h
  case h_16 => exact spells_of_decodeDevice (by grind) h
  -- The families in which not every word has a meaning.
  case h_1 =>
    split at h
    · next hword =>
      cases h
      rw [Spells, hword]
      rfl
    · split at h
      · next hword =>
        cases h
        rw [Spells, hword]
        rfl
      · cases h
  case h_6 =>
    split at h
    · cases h
      simp only [Spells, Instruction.Spells, Nat.reduceMul]
      omega
    · cases h
  case h_10 =>
    split at h
    · cases h
      simp only [Spells, Instruction.Spells, Nat.reduceMul]
      omega
    · cases h
  -- The others have a meaning for every word.
  all_goals
    cases h
    simp only [Spells, Instruction.Spells, Nat.reduceMul, toNat_address, toNat_byte,
      toNat_nibble]
    omega

/-! ## What is spelled is decoded -/

theorem fields_of_address {op : Opcode} {k a : Nat} (ha : a < 0x1000)
    (h : op.word.toNat = k * 0x1000 + a) : op.family = k ∧ op.address = a := by
  rw [family, address]
  omega

theorem fields_of_byte {op : Opcode} {k b : Nat} {x : Register} (hb : b < 0x100)
    (h : op.word.toNat = k * 0x1000 + x.index * 0x100 + b) :
    op.family = k ∧ op.x = x ∧ op.byte = b := by
  have hlt := x.index.isLt
  have hx : op.x = x := by
    apply Register.eq_of_val_eq
    rw [val_x]
    omega
  rw [family, byte]
  exact ⟨by omega, hx, by omega⟩

theorem fields_of_pair {op : Opcode} {k n : Nat} {x y : Register} (hn : n < 0x10)
    (h : op.word.toNat = k * 0x1000 + x.index * 0x100 + y.index * 0x10 + n) :
    op.family = k ∧ op.x = x ∧ op.y = y ∧ op.nibble = n := by
  have hxlt := x.index.isLt
  have hylt := y.index.isLt
  have hx : op.x = x := by
    apply Register.eq_of_val_eq
    rw [val_x]
    omega
  have hy : op.y = y := by
    apply Register.eq_of_val_eq
    rw [val_y]
    omega
  rw [family, nibble]
  exact ⟨by omega, hx, hy, by omega⟩

theorem decode_of_spells {op : Opcode} {ins : Instruction} (h : op.Spells ins) :
    op.decode = .ok ins := by
  rw [Spells] at h
  cases ins with
  | clear =>
    have hword : op.word = 0x00E0 := UInt16.toNat_inj.1 h
    have hfamily : op.family = 0 := by
      rw [family, hword]
      rfl
    simp only [decode, hfamily, hword, if_true]
  | ret =>
    have hword : op.word = 0x00EE := UInt16.toNat_inj.1 h
    have hfamily : op.family = 0 := by
      rw [family, hword]
      rfl
    simp [decode, hfamily, hword]
  | jump a | call a | setIndex a | jumpOffset a =>
    obtain ⟨hfamily, ha⟩ := fields_of_address h.2 h.1
    simp only [decode, hfamily, ha, UInt16.ofNat_toNat]
  | skipIfByte x b | skipUnlessByte x b | setByte x b | addByte x b | random x b =>
    obtain ⟨hfamily, hx, hb⟩ := fields_of_byte b.toNat_lt h
    simp only [decode, hfamily, hx, hb, UInt8.ofNat_toNat]
  | skipIfSame x y | skipUnlessSame x y =>
    obtain ⟨hfamily, hx, hy, hn⟩ := fields_of_pair (by decide) h
    simp only [decode, hfamily, hx, hy, hn, if_true]
  | copy x y | or x y | and x y | xor x y | add x y | sub x y | subFrom x y =>
    obtain ⟨hfamily, hx, hy, hn⟩ := fields_of_pair (by decide) h
    simp only [decode, decodeArithmetic, hfamily, hx, hy, hn]
  | shiftRight x | shiftLeft x =>
    obtain ⟨y, h⟩ := h
    obtain ⟨hfamily, hx, -, hn⟩ := fields_of_pair (by decide) h
    simp only [decode, decodeArithmetic, hfamily, hx, hn]
  | draw x y n =>
    obtain ⟨hfamily, hx, hy, hn⟩ := fields_of_pair h.2 h.1
    simp only [decode, hfamily, hx, hy, hn, UInt8.ofNat_toNat]
  | skipIfKey x | skipUnlessKey x =>
    obtain ⟨hfamily, hx, hb⟩ := fields_of_byte (by decide) h
    simp only [decode, decodeKey, hfamily, hx, hb]
  | getDelay x | awaitKey x | setDelay x | setSound x | addIndex x | glyph x | storeDecimal x
  | storeRegisters x | loadRegisters x =>
    obtain ⟨hfamily, hx, hb⟩ := fields_of_byte (by decide) h
    simp only [decode, decodeDevice, hfamily, hx, hb]

/-- **Decoding is spelling.** A word is decoded as an instruction exactly when it spells it. -/
theorem decode_eq_ok_iff {op : Opcode} {ins : Instruction} :
    op.decode = .ok ins ↔ op.Spells ins :=
  ⟨spells_of_decode, decode_of_spells⟩

/-! ## What is refused -/

/-- Only two words of the family of machine code routines are instructions. -/
theorem Spells.word_of_lt {op : Opcode} {ins : Instruction} (h : op.Spells ins)
    (hword : op.word.toNat < 0x1000) : op.word.toNat = 0x00E0 ∨ op.word.toNat = 0x00EE := by
  have hdecode := decode_eq_ok_iff.2 h
  have hfamily : op.family = 0 := by
    rw [family]
    omega
  simp only [decode, hfamily] at hdecode
  split at hdecode
  · next heq => exact .inl (congrArg UInt16.toNat heq)
  · split at hdecode
    · next heq => exact .inr (congrArg UInt16.toNat heq)
    · cases hdecode

theorem error_of_decodeArithmetic {op : Opcode} {e : DecodeError}
    (h : op.decodeArithmetic = .error e) : e = .unknown op := by
  rw [decodeArithmetic] at h
  split at h <;> cases h
  rfl

theorem error_of_decodeKey {op : Opcode} {e : DecodeError} (h : op.decodeKey = .error e) :
    e = .unknown op := by
  rw [decodeKey] at h
  split at h <;> cases h
  rfl

theorem error_of_decodeDevice {op : Opcode} {e : DecodeError} (h : op.decodeDevice = .error e) :
    e = .unknown op := by
  rw [decodeDevice] at h
  split at h <;> cases h
  rfl

/-- The error of a word that is no instruction. -/
def refusal (op : Opcode) : DecodeError :=
  if op.word.toNat < 0x1000 then .machineRoutine op else .unknown op

theorem refusal_of_family {op : Opcode} (h : op.family ≠ 0) : op.refusal = .unknown op := by
  have hword : ¬op.word.toNat < 0x1000 := by
    rw [family] at h
    omega
  rw [refusal, if_neg hword]

theorem error_of_decode {op : Opcode} {e : DecodeError} (h : op.decode = .error e) :
    e = op.refusal := by
  by_cases hfamily : op.family = 0
  · have hword : op.word.toNat < 0x1000 := by
      rw [family] at hfamily
      omega
    rw [refusal, if_pos hword]
    simp only [decode, hfamily] at h
    split at h
    · cases h
    · split at h <;> cases h
      rfl
  · rw [refusal_of_family hfamily]
    simp only [decode] at h
    split at h
    case h_1 => contradiction
    case h_9 => exact error_of_decodeArithmetic h
    case h_15 => exact error_of_decodeKey h
    case h_16 => exact error_of_decodeDevice h
    case h_6 =>
      split at h <;> cases h
      rfl
    case h_10 =>
      split at h <;> cases h
      rfl
    all_goals cases h

/-- A word is refused exactly when it spells no instruction. -/
theorem decode_eq_error_iff {op : Opcode} {e : DecodeError} :
    op.decode = .error e ↔ (∀ ins, ¬op.Spells ins) ∧ e = op.refusal := by
  cases hdecode : op.decode with
  | ok ins =>
    have hspells := decode_eq_ok_iff.1 hdecode
    simp only [reduceCtorEq, false_iff, not_and]
    exact fun hnone => absurd hspells (hnone ins)
  | error e' =>
    rw [error_of_decode hdecode, Except.error.injEq, eq_comm]
    refine ⟨fun he => ⟨fun ins hspells => ?_, he⟩, And.right⟩
    rw [decode_eq_ok_iff.2 hspells] at hdecode
    cases hdecode

end Opcode

end Chip8
