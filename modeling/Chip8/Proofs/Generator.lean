import Chip8.Generator

/-!
# The generator loses no state

Draws can be taken back: `previous` finds the state before a draw. The sixteen bytes of a state give
the state back (`ofBytes_toBytes`), except for the state of four zeros, which no generator ever has.
Conversely, a generator made from sixteen bytes has these bytes, unless all of them are zero
(`toBytes_ofBytes`).

**Theorem (`loses_no_state`).** All of this, for every seed and any number of draws.
-/

namespace Chip8.Generator

/-- Some word of the state is not zero. -/
def Nonzero (g : Generator) : Prop :=
  ¬(g.x = 0 ∧ g.y = 0 ∧ g.z = 0 ∧ g.w = 0)

instance (g : Generator) : Decidable g.Nonzero :=
  inferInstanceAs (Decidable ¬(g.x = 0 ∧ g.y = 0 ∧ g.z = 0 ∧ g.w = 0))

/-! ## Seeds -/

theorem ofSeed_of_nonzero {g : Generator} (h : g.Nonzero) : ofSeed g.x g.y g.z g.w = g := by
  rw [ofSeed, if_neg h]

theorem nonzero_ofSeed (x y z w : UInt32) : (ofSeed x y z w).Nonzero := by
  rw [ofSeed]
  split
  · decide
  · next h => exact h

theorem nonzero_ofBytes (b : Vector UInt8 16) : (ofBytes b).Nonzero :=
  nonzero_ofSeed _ _ _ _

/-! ## Taking a draw back -/

theorem xor_xor_cancel_left (a b : UInt32) : a ^^^ (a ^^^ b) = b := by
  rw [← UInt32.xor_assoc, UInt32.xor_self, UInt32.zero_xor]

theorem shiftLeft_shiftLeft (x : UInt32) :
    x <<< 11 <<< 11 = x <<< 22 ∧ x <<< 11 <<< 22 = 0 := by
  refine ⟨?_, ?_⟩ <;> apply UInt32.toBitVec_inj.1 <;> simp [← BitVec.shiftLeft_add]

theorem shiftRight_shiftRight (t : UInt32) :
    t >>> 8 >>> 8 = t >>> 16 ∧ t >>> 8 >>> 16 = t >>> 24 ∧ t >>> 8 >>> 24 = 0 := by
  refine ⟨?_, ?_, ?_⟩ <;> apply UInt32.toBitVec_inj.1 <;>
    simp [← BitVec.shiftRight_add, BitVec.ushiftRight_eq_zero]

/-- The word `x` of which `x ^^^ (x <<< 11)` is known. -/
def unshiftLeft (t : UInt32) : UInt32 :=
  t ^^^ (t <<< 11) ^^^ (t <<< 22)

/-- The word `t` of which `t ^^^ (t >>> 8)` is known. -/
def unshiftRight (s : UInt32) : UInt32 :=
  s ^^^ (s >>> 8) ^^^ (s >>> 16) ^^^ (s >>> 24)

/-- Each shifted copy meets itself again, and the last one has left the word. -/
theorem unshiftLeft_xor_shiftLeft (x : UInt32) : unshiftLeft (x ^^^ (x <<< 11)) = x := by
  obtain ⟨h22, h33⟩ := shiftLeft_shiftLeft x
  rw [unshiftLeft, UInt32.shiftLeft_xor, UInt32.shiftLeft_xor, h22, h33]
  simp only [UInt32.xor_assoc, xor_xor_cancel_left, UInt32.xor_self, UInt32.xor_zero]

theorem unshiftRight_xor_shiftRight (t : UInt32) : unshiftRight (t ^^^ (t >>> 8)) = t := by
  obtain ⟨h16, h24, h32⟩ := shiftRight_shiftRight t
  rw [unshiftRight, UInt32.shiftRight_xor, UInt32.shiftRight_xor, UInt32.shiftRight_xor, h16, h24,
    h32]
  simp only [UInt32.xor_assoc, xor_xor_cancel_left, UInt32.xor_self, UInt32.xor_zero]

/-- The state before the draw that led to `g`. -/
def previous (g : Generator) : Generator :=
  ⟨unshiftLeft (unshiftRight (g.z ^^^ (g.z >>> 19) ^^^ g.w)), g.x, g.y, g.z⟩

theorem previous_next (g : Generator) : g.next.previous = g := by
  have hlast (u : UInt32) : g.w ^^^ (g.w >>> 19) ^^^ (g.w ^^^ (g.w >>> 19) ^^^ u) = u :=
    xor_xor_cancel_left _ u
  rw [previous, next]
  simp only [hlast, unshiftRight_xor_shiftRight, unshiftLeft_xor_shiftLeft]

theorem next_injective : Function.Injective next :=
  Function.LeftInverse.injective previous_next

/-! ## Draws -/

/-- Four zeros lead to four zeros, and no other state does. -/
theorem next_eq_zero_iff {g : Generator} : g.next = ⟨0, 0, 0, 0⟩ ↔ g = ⟨0, 0, 0, 0⟩ := by
  have hzero : (⟨0, 0, 0, 0⟩ : Generator).next = ⟨0, 0, 0, 0⟩ := by decide
  constructor
  · intro h
    exact next_injective (h.trans hzero.symm)
  · rintro rfl
    exact hzero

theorem nonzero_iff {g : Generator} : g.Nonzero ↔ g ≠ ⟨0, 0, 0, 0⟩ := by
  rw [Nonzero, ne_eq, mk.injEq]

theorem nonzero_next {g : Generator} (h : g.Nonzero) : g.next.Nonzero :=
  nonzero_iff.2 fun hzero => nonzero_iff.1 h (next_eq_zero_iff.1 hzero)

theorem nonzero_skip {g : Generator} (h : g.Nonzero) (n : Nat) : (g.skip n).Nonzero := by
  induction n generalizing g with
  | zero => exact h
  | succ n ih => exact ih (nonzero_next h)

/-! ## Bytes -/

theorem ofWordBytes_wordBytes (w : UInt32) :
    ofWordBytes (UInt8.ofNat (w.toNat / 0x1000000)) (UInt8.ofNat (w.toNat / 0x10000))
      (UInt8.ofNat (w.toNat / 0x100)) (UInt8.ofNat w.toNat) = w := by
  have hlt := w.toNat_lt
  have hsum : ((w.toNat / 0x1000000 % 256 * 256 + w.toNat / 0x10000 % 256) * 256 +
      w.toNat / 0x100 % 256) * 256 + w.toNat % 256 = w.toNat := by
    omega
  simp only [ofWordBytes, UInt8.toNat_ofNat']
  rw [hsum, UInt32.ofNat_toNat]

theorem toBytes_eq (g : Generator) :
    g.toBytes =
      #v[UInt8.ofNat (g.x.toNat / 0x1000000), UInt8.ofNat (g.x.toNat / 0x10000),
        UInt8.ofNat (g.x.toNat / 0x100), UInt8.ofNat g.x.toNat,
        UInt8.ofNat (g.y.toNat / 0x1000000), UInt8.ofNat (g.y.toNat / 0x10000),
        UInt8.ofNat (g.y.toNat / 0x100), UInt8.ofNat g.y.toNat,
        UInt8.ofNat (g.z.toNat / 0x1000000), UInt8.ofNat (g.z.toNat / 0x10000),
        UInt8.ofNat (g.z.toNat / 0x100), UInt8.ofNat g.z.toNat,
        UInt8.ofNat (g.w.toNat / 0x1000000), UInt8.ofNat (g.w.toNat / 0x10000),
        UInt8.ofNat (g.w.toNat / 0x100), UInt8.ofNat g.w.toNat] := by
  apply Vector.toList_inj.1
  rw [toBytes, Vector.toList_append, Vector.toList_append, Vector.toList_append]
  rfl

/-- The words of a state are read off its bytes. -/
theorem ofBytes_eq_ofSeed (g : Generator) : ofBytes g.toBytes = ofSeed g.x g.y g.z g.w := by
  rw [ofBytes, toBytes_eq]
  simp only [Vector.getElem_mk, List.getElem_toArray, List.getElem_cons_zero,
    List.getElem_cons_succ, ofWordBytes_wordBytes]

/-- **The bytes of a state give the state back.** -/
theorem ofBytes_toBytes {g : Generator} (h : g.Nonzero) : ofBytes g.toBytes = g := by
  rw [ofBytes_eq_ofSeed, ofSeed_of_nonzero h]

/-! ## States made from bytes -/

theorem toNat_ofWordBytes (a b c d : UInt8) :
    (ofWordBytes a b c d).toNat =
      ((a.toNat * 256 + b.toNat) * 256 + c.toNat) * 256 + d.toNat := by
  have ha := a.toNat_lt
  have hb := b.toNat_lt
  have hc := c.toNat_lt
  have hd := d.toNat_lt
  rw [ofWordBytes, UInt32.toNat_ofNat']
  omega

theorem wordBytes_ofWordBytes (a b c d : UInt8) :
    wordBytes (ofWordBytes a b c d) = #v[a, b, c, d] := by
  have ha := a.toNat_lt
  have hb := b.toNat_lt
  have hc := c.toNat_lt
  have hd := d.toNat_lt
  have hbytes : UInt8.ofNat ((ofWordBytes a b c d).toNat / 0x1000000) = a ∧
      UInt8.ofNat ((ofWordBytes a b c d).toNat / 0x10000) = b ∧
      UInt8.ofNat ((ofWordBytes a b c d).toNat / 0x100) = c ∧
      UInt8.ofNat (ofWordBytes a b c d).toNat = d := by
    rw [toNat_ofWordBytes]
    refine ⟨?_, ?_, ?_, ?_⟩ <;> apply UInt8.toNat_inj.1 <;> rw [UInt8.toNat_ofNat'] <;> omega
  rw [wordBytes, hbytes.1, hbytes.2.1, hbytes.2.2.1, hbytes.2.2.2]

theorem ofWordBytes_eq_zero_iff {a b c d : UInt8} :
    ofWordBytes a b c d = 0 ↔ a = 0 ∧ b = 0 ∧ c = 0 ∧ d = 0 := by
  simp only [← UInt32.toNat_inj, ← UInt8.toNat_inj, toNat_ofWordBytes, UInt32.toNat_zero,
    UInt8.toNat_zero]
  omega

theorem eq_bytes (b : Vector UInt8 16) :
    b = #v[b.get 0, b.get 1, b.get 2, b.get 3, b.get 4, b.get 5, b.get 6, b.get 7, b.get 8,
      b.get 9, b.get 10, b.get 11, b.get 12, b.get 13, b.get 14, b.get 15] := by
  obtain ⟨⟨bytes⟩, hlength⟩ := b
  match bytes, hlength with
  | [_, _, _, _, _, _, _, _, _, _, _, _, _, _, _, _], _ => rfl

theorem words_eq_zero_iff {b : Vector UInt8 16} :
    (ofWordBytes (b.get 0) (b.get 1) (b.get 2) (b.get 3) = 0 ∧
        ofWordBytes (b.get 4) (b.get 5) (b.get 6) (b.get 7) = 0 ∧
        ofWordBytes (b.get 8) (b.get 9) (b.get 10) (b.get 11) = 0 ∧
        ofWordBytes (b.get 12) (b.get 13) (b.get 14) (b.get 15) = 0) ↔
      b = .replicate 16 0 := by
  simp only [ofWordBytes_eq_zero_iff]
  constructor
  · intro h
    calc b = _ := eq_bytes b
      _ = .replicate 16 0 := by
        simp only [h]
        rfl
  · rintro rfl
    decide

/-- **Bytes are kept.** A generator made from sixteen bytes has these bytes, unless all of them
are zero. -/
theorem toBytes_ofBytes (b : Vector UInt8 16) :
    (ofBytes b).toBytes = if b = .replicate 16 0 then fallback.toBytes else b := by
  rw [ofBytes, ofSeed]
  split
  · next h => rw [if_pos (words_eq_zero_iff.1 h)]
  · next h =>
    rw [if_neg fun hzero => h (words_eq_zero_iff.2 hzero)]
    apply Vector.toList_inj.1
    simp only [toBytes, wordBytes_ofWordBytes, Vector.toList_append]
    exact congrArg Vector.toList (eq_bytes b).symm

/-- **The generator loses no state.** A draw can be taken back, and leads to four zeros only from
four zeros. So for every seed and after any number of draws the state is not four zeros, its bytes
give it back, and the generator they give draws the same numbers. Conversely, sixteen bytes are the
bytes of the generator made of them, unless all are zero, which stand for the fallback. -/
theorem loses_no_state :
    Function.Injective next ∧
      (∀ g : Generator, g.next = ⟨0, 0, 0, 0⟩ ↔ g = ⟨0, 0, 0, 0⟩) ∧
      (∀ x y z w n, (ofSeed x y z w).skip n ≠ ⟨0, 0, 0, 0⟩ ∧
        ofBytes ((ofSeed x y z w).skip n).toBytes = (ofSeed x y z w).skip n ∧
        ∀ k, ((ofBytes ((ofSeed x y z w).skip n).toBytes).skip k).draw =
          (((ofSeed x y z w).skip n).skip k).draw) ∧
      (∀ b : Vector UInt8 16, b ≠ .replicate 16 0 → (ofBytes b).toBytes = b) ∧
      ofBytes (.replicate 16 0) = fallback := by
  refine ⟨next_injective, fun _ => next_eq_zero_iff, fun x y z w n => ?drawn, fun b hb => ?bytes,
    by decide⟩
  case drawn =>
    have hnonzero : ((ofSeed x y z w).skip n).Nonzero := nonzero_skip (nonzero_ofSeed x y z w) n
    have hback := ofBytes_toBytes hnonzero
    exact ⟨nonzero_iff.1 hnonzero, hback, fun k => by rw [hback]⟩
  case bytes => rw [toBytes_ofBytes, if_neg hb]

end Chip8.Generator
