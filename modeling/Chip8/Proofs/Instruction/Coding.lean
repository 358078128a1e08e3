import Chip8.Proofs.Instruction.Forms

/-!
# Words and instructions, one to one

An instruction is `Encodable` if its address has twelve bits and its row count four. It then has a
word, which holds its operands in their places.

**Theorem (`coding_one_to_one`).** Exactly the encodable instructions are decoded from some word,
and from one word each, but for the third nibble of a shift.
-/

namespace Chip8

namespace Instruction

/-- The operands fit into a word. -/
def Encodable : Instruction → Prop
  | .jump a | .call a | .setIndex a | .jumpOffset a => a.toNat ≤ 0xFFF
  | .draw _ _ n => n.toNat ≤ 0xF
  | _ => True

/-! ## Every encodable instruction has a word -/

theorem toNat_addressWord {family : Nat} {a : UInt16} (hfamily : family < 0x10)
    (ha : a.toNat ≤ 0xFFF) : (addressWord family a).word.toNat = family * 0x1000 + a.toNat := by
  rw [addressWord, UInt16.toNat_ofNat']
  omega

theorem toNat_byteWord {family byte : Nat} (x : Register) (hfamily : family < 0x10)
    (hbyte : byte < 0x100) :
    (byteWord family x byte).word.toNat = family * 0x1000 + x.index * 0x100 + byte := by
  have hx := x.index.isLt
  rw [byteWord, UInt16.toNat_ofNat']
  omega

theorem toNat_pairWord {family nibble : Nat} (x y : Register) (hfamily : family < 0x10)
    (hnibble : nibble < 0x10) :
    (pairWord family x y nibble).word.toNat =
      family * 0x1000 + x.index * 0x100 + y.index * 0x10 + nibble := by
  have hx := x.index.isLt
  have hy := y.index.isLt
  rw [pairWord, UInt16.toNat_ofNat']
  omega

/-- The word of an encodable instruction holds its operands in their places. -/
theorem spells_encode {ins : Instruction} (h : ins.Encodable) : ins.encode.Spells ins := by
  cases ins with
  | clear | ret => rfl
  | jump a | call a | setIndex a | jumpOffset a =>
    exact ⟨toNat_addressWord (by decide) h, Nat.lt_succ_of_le h⟩
  | skipIfByte x b | skipUnlessByte x b | setByte x b | addByte x b | random x b =>
    exact toNat_byteWord x (by decide) b.toNat_lt
  | skipIfSame x y | copy x y | or x y | and x y | xor x y | add x y | sub x y | subFrom x y
  | skipUnlessSame x y =>
    exact toNat_pairWord x y (by decide) (by decide)
  | shiftRight x | shiftLeft x =>
    exact ⟨.v0, toNat_pairWord x .v0 (by decide) (by decide)⟩
  | draw x y n =>
    exact ⟨toNat_pairWord x y (by decide) (Nat.lt_succ_of_le h), Nat.lt_succ_of_le h⟩
  | skipIfKey x | skipUnlessKey x | getDelay x | awaitKey x | setDelay x | setSound x | addIndex x
  | glyph x | storeDecimal x | storeRegisters x | loadRegisters x =>
    exact toNat_byteWord x (by decide) (by decide)

theorem decode_encode {ins : Instruction} (h : ins.Encodable) : ins.encode.decode = .ok ins :=
  Opcode.decode_eq_ok_iff.2 (spells_encode h)

end Instruction

namespace Opcode

theorem Spells.encodable {op : Opcode} {ins : Instruction} (h : op.Spells ins) :
    ins.Encodable := by
  cases ins with
  | jump a | call a | setIndex a | jumpOffset a => exact Nat.le_of_lt_succ h.2
  | draw x y n => exact Nat.le_of_lt_succ h.2
  | _ => exact trivial

/-! ## A word is determined by its instruction -/

/-- Both words are the form `8xy6`, or both the form `8xyE`, with the same `x`. -/
def SameShift (op op' : Opcode) : Prop :=
  ∃ n, (n = 0x6 ∨ n = 0xE) ∧ ∃ x y y' : Register,
    op.word.toNat = 0x8 * 0x1000 + x.index * 0x100 + y.index * 0x10 + n ∧
    op'.word.toNat = 0x8 * 0x1000 + x.index * 0x100 + y'.index * 0x10 + n

/-- Words with the same instruction differ at most in what a shift ignores. -/
theorem Spells.eq_or_sameShift {op op' : Opcode} {ins : Instruction} (h : op.Spells ins)
    (h' : op'.Spells ins) : op = op' ∨ SameShift op op' := by
  rw [Spells] at h h'
  cases ins with
  | shiftRight x =>
    obtain ⟨⟨y, hy⟩, ⟨y', hy'⟩⟩ := And.intro h h'
    exact .inr ⟨0x6, .inl rfl, x, y, y', hy, hy'⟩
  | shiftLeft x =>
    obtain ⟨⟨y, hy⟩, ⟨y', hy'⟩⟩ := And.intro h h'
    exact .inr ⟨0xE, .inr rfl, x, y, y', hy, hy'⟩
  | jump a | call a | setIndex a | jumpOffset a | draw x y n =>
    exact .inl (eq_of_toNat_eq (h.1.trans h'.1.symm))
  | _ => exact .inl (eq_of_toNat_eq (h.trans h'.symm))

theorem SameShift.decode_eq {op op' : Opcode} (h : SameShift op op') :
    op.decode = op'.decode := by
  obtain ⟨n, hn, x, y, y', hop, hop'⟩ := h
  rcases hn with rfl | rfl
  · have hright : op.Spells (.shiftRight x) ∧ op'.Spells (.shiftRight x) := ⟨⟨y, hop⟩, ⟨y', hop'⟩⟩
    rw [decode_eq_ok_iff.2 hright.1, decode_eq_ok_iff.2 hright.2]
  · have hleft : op.Spells (.shiftLeft x) ∧ op'.Spells (.shiftLeft x) := ⟨⟨y, hop⟩, ⟨y', hop'⟩⟩
    rw [decode_eq_ok_iff.2 hleft.1, decode_eq_ok_iff.2 hleft.2]

/-- **Decoding is one to one** from the words with a meaning to the encodable instructions, but for
the ignored nibble of the shifts. -/
theorem coding_one_to_one :
    (∀ ins : Instruction, ins.Encodable →
      ins.encode.Spells ins ∧ ins.encode.decode = .ok ins) ∧
    (∀ (op : Opcode) (ins : Instruction), op.decode = .ok ins → ins.Encodable) ∧
    ∀ (op op' : Opcode) (ins ins' : Instruction), op.decode = .ok ins → op'.decode = .ok ins' →
      (ins = ins' ↔ op = op' ∨ SameShift op op') := by
  refine ⟨fun ins h => ⟨Instruction.spells_encode h, Instruction.decode_encode h⟩,
    fun op ins h => (decode_eq_ok_iff.1 h).encodable, fun op op' ins ins' h h' => ⟨?_, ?_⟩⟩
  · rintro rfl
    exact (decode_eq_ok_iff.1 h).eq_or_sameShift (decode_eq_ok_iff.1 h')
  · intro hwords
    have hdecode : op.decode = op'.decode := by
      rcases hwords with rfl | hshift
      · rfl
      · exact hshift.decode_eq
    exact Except.ok.inj (h.symm.trans (hdecode.trans h'))

end Opcode

end Chip8
