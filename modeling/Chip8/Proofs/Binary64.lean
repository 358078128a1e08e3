import Chip8.Binary64
import Mathlib

/-!
# Reading and writing floating-point numbers

A word of 64 bits is a sign, an exponent field and a fraction field. Reading the fields by
arithmetic (`ofBits`) and taking the word apart bit by bit (`unpack`) give the same number, and
the word of a number comes back from its fields.

**Theorem (`denotes_toFloat`).** A quotient below `2 ^ 53` with at most 52 binary places is written
as the floating-point number that is equal to it.

**Theorem (`denotes_toFloat_fract`).** The fraction of a floating-point number of at least one is
such a quotient: a number with a bit above the point has at most 52 bits below it.
-/

namespace Chip8.Binary64

open Float.Model (Format UnpackedFloat)
open Float.Model.UnpackedFloat
  (Sign unpackSign unpackExponent unpackMantissa isNaNBits unpack pack_unpack)

/-- A floating-point number is exactly the rational number. -/
def Denotes (x : Float) (q : Rat) : Prop :=
  (ofFloat x).value? = some q

instance (x : Float) (q : Rat) : Decidable (Denotes x q) :=
  inferInstanceAs (Decidable ((ofFloat x).value? = some q))

theorem Denotes.eq {x : Float} {q r : Rat} (hq : Denotes x q) (hr : Denotes x r) : q = r :=
  Option.some_inj.1 (hq.symm.trans hr)

/-! ## The fields of a word -/

section Fields

variable (w : BitVec Format.binary64.numBits)

theorem toNat_unpackMantissa : (unpackMantissa w).toNat = w.toNat % leadingBit := by
  simp [unpackMantissa, leadingBit]

theorem toNat_unpackExponent : (unpackExponent w).toNat = w.toNat / leadingBit % 0x800 := by
  simp [unpackExponent, leadingBit, Nat.shiftRight_eq_div_pow]

theorem toNat_unpackSign : (unpackSign w).toNat = w.toNat / 0x8000000000000000 := by
  have hw : w.toNat < 0x10000000000000000 := w.isLt
  have hbit : (unpackSign w).toNat = w.toNat / 0x8000000000000000 % 2 := by
    simp [unpackSign, Nat.shiftRight_eq_div_pow]
  omega

def isNegative : Sign → Bool
  | .negative => true
  | .positive => false

theorem isNegative_ofBitVec (b : BitVec 1) :
    isNegative (.ofBitVec b) = decide (b.toNat = 1) := by
  revert b
  decide

theorem isNegative_unpackSign :
    isNegative (.ofBitVec (unpackSign w)) = decide (0x8000000000000000 ≤ w.toNat) := by
  have hw : w.toNat < 0x10000000000000000 := w.isLt
  rw [isNegative_ofBitVec, toNat_unpackSign, decide_eq_decide]
  omega

def ofUnpacked : UnpackedFloat → Binary64
  | .notANumber => nan
  | .infinity s => infinite (isNegative s)
  | .zero s => finite (isNegative s) 0 leastExponent
  | .finite s mantissa exponent _ => finite (isNegative s) mantissa exponent

theorem toNat_leading_append (m : BitVec 52) : (1#1 ++ m).toNat = leadingBit + m.toNat := by
  rw [BitVec.toNat_append, ← Nat.shiftLeft_add_eq_or_of_lt m.isLt]
  simp [Nat.shiftLeft_eq, leadingBit]

/-- The two ways to read a word agree. -/
theorem ofBits_toNat : ofBits w.toNat = ofUnpacked (unpack .binary64 w) := by
  have hE : unpackExponent w = -1#11 ↔ w.toNat / leadingBit % 0x800 = 2047 := by
    rw [← toNat_unpackExponent, ← BitVec.toNat_inj]
    rfl
  have hE0 : unpackExponent w = 0#11 ↔ w.toNat / leadingBit % 0x800 = 0 := by
    rw [← toNat_unpackExponent, ← BitVec.toNat_inj]
    rfl
  have hM : unpackMantissa w = 0#52 ↔ w.toNat % leadingBit = 0 := by
    rw [← toNat_unpackMantissa, ← BitVec.toNat_inj]
    rfl
  rw [ofBits, ofFields, ← isNegative_unpackSign]
  -- The exponent field tells the cases apart: all ones, zero, and everything in between.
  by_cases h2047 : w.toNat / leadingBit % 0x800 = 2047
  · by_cases hzero : w.toNat % leadingBit = 0
    · simp only [unpack, h2047, hE.2 h2047, hzero, hM.2 hzero]
      rfl
    · have hmantissa : unpackMantissa w ≠ 0#52 := fun h => hzero (hM.1 h)
      simp only [unpack, h2047, hE.2 h2047, hzero, hmantissa]
      rfl
  · have hspecial : unpackExponent w ≠ -1#11 := fun h => h2047 (hE.1 h)
    by_cases hleast : w.toNat / leadingBit % 0x800 = 0
    · by_cases hzero : w.toNat % leadingBit = 0
      · simp only [unpack, hleast, hE0.2 hleast, hzero, hM.2 hzero]
        rfl
      · have hmantissa : unpackMantissa w ≠ 0#52 := fun h => hzero (hM.1 h)
        simp only [unpack, hleast, hE0.2 hleast, hmantissa, ← toNat_unpackMantissa]
        rfl
    · have hnormal : unpackExponent w ≠ 0#11 := fun h => hleast (hE0.1 h)
      have hexponent : leastExponent + ((w.toNat / leadingBit % 0x800 : Nat) : Int) - 1 =
          ((unpackExponent w).toNat : Int) - (1023 + 52) := by
        rw [toNat_unpackExponent, leastExponent]
        omega
      rw [if_neg h2047, if_neg hleast, unpack, if_neg hspecial, if_neg hnormal, hexponent]
      simp only [ofUnpacked, toNat_leading_append, toNat_unpackMantissa]
      rfl

end Fields

theorem toBits_ofBits {b : UInt64} (h : b.toNat / leadingBit % 0x800 ≠ 2047) :
    (Float.ofBits b).toBits = b := by
  have hnumber : ¬@isNaNBits .binary64 b.toBitVec = true := by
    intro hnan
    apply h
    have hexponent := congrArg BitVec.toNat (of_decide_eq_true hnan).1
    rw [toNat_unpackExponent] at hexponent
    exact hexponent
  have hpack := @pack_unpack .binary64 b.toBitVec (by decide)
  exact congrArg UInt64.ofBitVec (hpack.trans (if_neg hnumber))

/-! ## Writing -/

/-- A mantissa that is moved up until its leading bit is in place. -/
theorem scaled_mantissa {m : Nat} (hpos : 0 < m) (hlt : m < 2 ^ 53) :
    leadingBit ≤ m * 2 ^ (52 - m.log2) ∧ m * 2 ^ (52 - m.log2) < 2 * leadingBit := by
  have hlog : m.log2 < 53 := (Nat.log2_lt (Nat.ne_of_gt hpos)).2 hlt
  have hle := Nat.mul_le_mul_right (2 ^ (52 - m.log2)) (Nat.log2_self_le (Nat.ne_of_gt hpos))
  have hgt := Nat.mul_lt_mul_of_pos_right (Nat.lt_log2_self (n := m))
    (Nat.two_pow_pos (52 - m.log2))
  rw [← Nat.pow_add] at hle hgt
  have hsum : m.log2 + (52 - m.log2) = 52 := by omega
  have hnext : m.log2 + 1 + (52 - m.log2) = 53 := by omega
  rw [hsum] at hle
  rw [hnext] at hgt
  exact ⟨hle, hgt⟩

/-- A positive number with the leading bit is read off its two fields. -/
theorem ofBits_of_fields {field fraction : Nat} (hpos : 0 < field) (hlt : field < 2047)
    (hfraction : fraction < leadingBit) :
    ofBits (field * leadingBit + fraction) =
      finite false (leadingBit + fraction) (leastExponent + field - 1) := by
  have hsign : ¬0x8000000000000000 ≤ field * leadingBit + fraction := by
    simp only [leadingBit] at *
    omega
  have hfield : (field * leadingBit + fraction) / leadingBit % 0x800 = field := by
    simp only [leadingBit] at *
    omega
  have hrest : (field * leadingBit + fraction) % leadingBit = fraction := by
    simp only [leadingBit] at *
    omega
  rw [ofBits, hfield, hrest, decide_eq_false hsign, ofFields, if_neg (Nat.ne_of_lt hlt),
    if_neg (Nat.ne_of_gt hpos)]

theorem quotientBits_eq {m places : Nat} (hpos : 0 < m) (hlt : m < 2 ^ 53)
    (hplaces : places ≤ 52) :
    quotientBits m places = (1075 - places - (52 - m.log2)) * leadingBit +
      (m * 2 ^ (52 - m.log2) - leadingBit) := by
  obtain ⟨hle, -⟩ := scaled_mantissa hpos hlt
  have hbits : quotientBits m places =
      (1074 - places - (52 - m.log2)) * leadingBit + m * 2 ^ (52 - m.log2) :=
    if_neg (Nat.ne_of_gt hpos)
  rw [hbits]
  simp only [leadingBit] at *
  omega

theorem quotientBits_lt {m places : Nat} (hpos : 0 < m) (hlt : m < 2 ^ 53)
    (hplaces : places ≤ 52) : quotientBits m places < 0x7FF0000000000000 := by
  obtain ⟨-, hgt⟩ := scaled_mantissa hpos hlt
  rw [quotientBits_eq hpos hlt hplaces]
  simp only [leadingBit] at *
  omega

/-- A quotient is read as its mantissa, moved up, with more places. -/
theorem ofBits_quotientBits {m places : Nat} (hpos : 0 < m) (hlt : m < 2 ^ 53)
    (hplaces : places ≤ 52) :
    ofBits (quotientBits m places) =
      finite false (m * 2 ^ (52 - m.log2)) (-((places + (52 - m.log2) : Nat) : Int)) := by
  obtain ⟨hle, hgt⟩ := scaled_mantissa hpos hlt
  rw [quotientBits_eq hpos hlt hplaces]
  generalize hup : 52 - m.log2 = up at *
  have hup' : up ≤ 52 := by omega
  have hrest : m * 2 ^ up - leadingBit < leadingBit := by omega
  have hmantissa : leadingBit + (m * 2 ^ up - leadingBit) = m * 2 ^ up := by omega
  have hexponent : leastExponent + ((1075 - places - up : Nat) : Int) - 1 =
      -((places + up : Nat) : Int) := by
    rw [leastExponent]
    omega
  rw [ofBits_of_fields (by omega) (by omega) hrest, hmantissa, hexponent]

theorem value?_zero (negative : Bool) (exponent : Int) :
    (finite negative 0 exponent).value? = some 0 := by
  simp [value?]

theorem value?_of_places (m places : Nat) :
    (finite false m (-(places : Int))).value? = some (mkRat m (2 ^ places)) := by
  have hzero : (-(places : Int)).toNat = 0 := by omega
  have hplaces : (- -(places : Int)).toNat = places := by omega
  simp only [value?, hzero, hplaces]
  simp

theorem ofFloat_ofBits {b : Nat} (hlt : b < 0x7FF0000000000000) :
    ofFloat (Float.ofBits (UInt64.ofNat b)) = ofBits b := by
  have hb : (UInt64.ofNat b).toNat = b := UInt64.toNat_ofNat_of_lt' (Nat.lt_trans hlt (by decide))
  have hfield : (UInt64.ofNat b).toNat / leadingBit % 0x800 ≠ 2047 := by
    rw [hb]
    simp only [leadingBit]
    omega
  rw [ofFloat, toBits_ofBits hfield, hb]

theorem denotes_toFloat {q : Rat} {places : Nat} (hnonneg : 0 ≤ q.num) (hlt : q.num < 2 ^ 53)
    (hden : q.den = 2 ^ places) (hplaces : places ≤ 52) :
    Denotes (toFloat q) q := by
  obtain ⟨m, hm⟩ := Int.eq_ofNat_of_zero_le hnonneg
  have hmlt : m < 2 ^ 53 := by omega
  have hq : mkRat m (2 ^ places) = q := by
    rw [← hm, ← hden]
    exact Rat.mkRat_self q
  rw [Denotes, toFloat, hden, Nat.log2_two_pow, hm, Int.toNat_natCast]
  rcases Nat.eq_zero_or_pos m with rfl | hpos
  · have hzero : quotientBits 0 places = 0 := rfl
    have hread : ofBits 0 = finite false 0 leastExponent := by decide
    rw [hzero, ofFloat_ofBits (by decide), hread, value?_zero, ← hq, Nat.cast_zero,
      Rat.zero_mkRat]
  · have hscale : (2 : Nat) ^ (52 - m.log2) ≠ 0 := Nat.ne_of_gt (Nat.two_pow_pos _)
    rw [ofFloat_ofBits (quotientBits_lt hpos hmlt hplaces), ofBits_quotientBits hpos hmlt hplaces,
      value?_of_places, Nat.pow_add, ← hq, Int.natCast_mul, Rat.mkRat_mul_right hscale]

/-! ## The places of a number -/

theorem mantissa_lt_of_ofBits {b m : Nat} {negative : Bool} {e : Int}
    (h : ofBits b = finite negative m e) : m < 2 ^ 53 := by
  have hfraction : b % leadingBit < leadingBit := Nat.mod_lt _ (by decide)
  have hdouble : 2 * leadingBit = 2 ^ 53 := by decide
  rw [ofBits, ofFields] at h
  split_ifs at h <;> cases h <;> omega

/-- A floating-point number is a quotient by a power of two, of a number below `2 ^ 53` unless it
is a whole number. -/
theorem exists_quotient {x : Float} {q : Rat} (h : Denotes x q) :
    ∃ (n : Int) (k : Nat), q = mkRat n (2 ^ k) ∧ (k = 0 ∨ n < 2 ^ 53) := by
  rw [Denotes] at h
  generalize hread : ofFloat x = read at h
  cases read with
  | nan => cases h
  | infinite negative => cases h
  | finite negative m e =>
    have hm := mantissa_lt_of_ofBits hread
    simp only [value?, Option.some.injEq] at h
    refine ⟨_, (-e).toNat, h.symm, ?_⟩
    rcases Int.le_total 0 e with he | he
    · exact .inl (by omega)
    · have hzero : e.toNat = 0 := by omega
      rw [hzero]
      exact .inr (by cases negative <;> simp <;> omega)

/-- An amount of at least one has few binary places. -/
theorem exists_places {x : Float} {q : Rat} (h : Denotes x q) (hone : 1 ≤ q) :
    ∃ places ≤ 52, q.den = 2 ^ places := by
  obtain ⟨n, k, rfl, hcases⟩ := exists_quotient h
  have hk : k ≤ 52 := by
    rcases hcases with rfl | hlt
    · decide
    · -- At least one means `2 ^ k ≤ n`, which leaves no room for more places.
      have hpow : (0 : Rat) < (2 : Rat) ^ k := by positivity
      rw [Rat.mkRat_eq_div, Nat.cast_pow, Nat.cast_ofNat, le_div_iff₀ hpow, one_mul] at hone
      have hle : (2 : Int) ^ k ≤ n := by exact_mod_cast hone
      by_contra hgt
      have hbig : (2 : Int) ^ 53 ≤ 2 ^ k := pow_le_pow_right₀ (by decide) (by omega)
      omega
  have hdvd : (mkRat n (2 ^ k)).den ∣ 2 ^ k := by
    rw [Rat.den_mkRat, if_neg (Nat.ne_of_gt (Nat.two_pow_pos k))]
    exact Nat.div_dvd_of_dvd (Nat.gcd_dvd_left _ _)
  obtain ⟨places, hle, hden⟩ := (Nat.dvd_prime_pow Nat.prime_two).1 hdvd
  exact ⟨places, hle.trans hk, hden⟩

/-- What is left of an amount can be written. -/
theorem denotes_toFloat_fract {x : Float} {q : Rat} (h : Denotes x q) (hone : 1 ≤ q) :
    Denotes (toFloat (Int.fract q)) (Int.fract q) := by
  obtain ⟨places, hplaces, hden⟩ := exists_places h hone
  have hfract : (Int.fract q).den = 2 ^ places := by
    rw [← hden, Int.fract, Rat.sub_intCast_den]
  have hlt : (Int.fract q).num < 2 ^ 53 := by
    have hnum : (Int.fract q).num < (Int.fract q).den :=
      Rat.num_lt_denom_iff.2 (Int.fract_lt_one q)
    have hpow : (2 : Int) ^ places ≤ 2 ^ 52 := pow_le_pow_right₀ (by decide) hplaces
    rw [hfract] at hnum
    push_cast at hnum
    omega
  exact denotes_toFloat (Rat.num_nonneg.2 (Int.fract_nonneg q)) hlt hfract hplaces

theorem exists_denotes_of_pos {x : Float} (hpos : 0 < x) (hfinite : x.isFinite = true) :
    ∃ q : Rat, 0 < q ∧ Denotes x q := by
  have hread : ofFloat x = ofUnpacked x.toModel.unpack := ofBits_toNat x.toBits.toBitVec
  have hlt : UnpackedFloat.lt (.zero .positive) x.toModel.unpack = true := of_decide_eq_true hpos
  have hnumber : x.toModel.unpack.isFinite = true := hfinite
  simp only [Denotes, hread]
  cases hx : x.toModel.unpack with
  | notANumber => simp [hx, UnpackedFloat.isFinite] at hnumber
  | infinity s => simp [hx, UnpackedFloat.isFinite] at hnumber
  | zero s =>
    rw [hx] at hlt
    cases hlt
  | finite s m e hm =>
    rw [hx] at hlt
    cases s with
    | negative => cases hlt
    | positive =>
      have hscaled : (0 : Int) < (m : Int) * Int.pow 2 e.toNat :=
        Int.mul_pos (by omega) (Int.pow_pos (by decide))
      exact ⟨_, Rat.mkRat_pos hscaled (Nat.ne_of_gt (Nat.two_pow_pos _)), rfl⟩

end Chip8.Binary64
