import Chip8.Proofs.Machine.Performing
import Mathlib.Logic.Basic

/-!
# Arithmetic in integers

A register holds a byte, so a sum, a difference or a double may not fit. What is left in `Vx` and
the flag in `VF` together tell the exact result, and `Computes` says how, in integers. Operands are
read before anything is written, and the flag is written last: when `Vx` is `VF` itself, the flag
remains and the result is lost.

**Theorem (`arithmetic_in_integers`).** An arithmetic instruction always runs to its end and
computes this for all values of all registers.
-/

namespace Chip8

/-- The instruction computes a new value of a register from numbers. -/
def Instruction.IsArithmetic : Instruction → Prop
  | .addByte _ _ | .add _ _ | .sub _ _ | .subFrom _ _ | .shiftRight _ | .shiftLeft _ => True
  | _ => False

namespace Registers

def number (regs : Registers) (r : Register) : Int :=
  (regs.get r).toNat

/-- `VF` holds the flag, and only `Vx` has another value besides. Unless it is `VF`, its value and
the flag satisfy the law. -/
structure Flagged (regs regs' : Registers) (x : Register) (flag : Int)
    (law : Int → Int → Prop) : Prop where
  flag : regs'.number .vF = flag
  result : x ≠ .vF → law (regs'.number x) (regs'.number .vF)
  others : ∀ r, r ≠ x → r ≠ .vF → regs'.get r = regs.get r

/-- What an arithmetic instruction makes of the registers. -/
def Computes (regs regs' : Registers) : Instruction → Prop
  | .addByte x byte =>
    regs'.number x = (regs.number x + byte.toNat) % 256 ∧ ∀ r, r ≠ x → regs'.get r = regs.get r
  | .add x y =>
    let a := regs.number x
    let b := regs.number y
    regs.Flagged regs' x (if 256 ≤ a + b then 1 else 0) fun v f => v + 256 * f = a + b
  | .sub x y =>
    let a := regs.number x
    let b := regs.number y
    regs.Flagged regs' x (if b ≤ a then 1 else 0) fun v f => v = a - b + 256 * (1 - f)
  | .subFrom x y =>
    let a := regs.number x
    let b := regs.number y
    regs.Flagged regs' x (if a ≤ b then 1 else 0) fun v f => v = b - a + 256 * (1 - f)
  | .shiftRight x =>
    let a := regs.number x
    regs.Flagged regs' x (a % 2) fun v f => 2 * v + f = a
  | .shiftLeft x =>
    let a := regs.number x
    regs.Flagged regs' x (a / 128) fun v f => v + 256 * f = 2 * a
  | _ => False

variable {regs : Registers} {x y : Register}

/-! ## Writing a result and its flag -/

theorem number_set_self (value : UInt8) : (regs.set x value).number x = value.toNat := by
  rw [number, get_set_self]

theorem number_set_of_ne {r : Register} (value : UInt8) (h : r ≠ x) :
    (regs.set x value).number r = regs.number r := by
  rw [number, get_set_of_ne _ _ h, number]

theorem toNat_flag (condition : Prop) [Decidable condition] :
    ((Machine.flag (decide condition)).toNat : Int) = if condition then 1 else 0 := by
  by_cases h : condition
  · rw [if_pos h, decide_eq_true h]
    rfl
  · rw [if_neg h, decide_eq_false h]
    rfl

/-- The result is written first and the flag second. -/
theorem flagged_set_set {value : UInt8} {condition : Prop} [Decidable condition] {flag : Int}
    {law : Int → Int → Prop} (hflag : (if condition then 1 else 0) = flag)
    (hlaw : law value.toNat flag) :
    regs.Flagged ((regs.set x value).set .vF (Machine.flag (decide condition))) x flag law := by
  have hvF : ((regs.set x value).set .vF (Machine.flag (decide condition))).number .vF = flag := by
    rw [number_set_self, toNat_flag, hflag]
  refine ⟨hvF, fun hx => ?_, fun r hrx hrF => ?_⟩
  · rw [hvF, number_set_of_ne _ hx, number_set_self]
    exact hlaw
  · rw [get_set_of_ne _ _ hrF, get_set_of_ne _ _ hrx]

theorem computes_addByte (regs : Registers) (x : Register) (byte : UInt8) :
    regs.Computes (regs.add x byte) (.addByte x byte) := by
  refine ⟨?_, fun r hr => get_set_of_ne _ _ hr⟩
  rw [add, number_set_self, UInt8.toNat_add, number]
  omega

end Registers

/-! ## Bytes and integers -/

theorem toNat_add_carry (a b : UInt8) :
    ((a + b).toNat : Int) + 256 * (if 256 ≤ (a.toNat + b.toNat : Int) then 1 else 0) =
      a.toNat + b.toNat := by
  have ha := a.toNat_lt
  have hb := b.toNat_lt
  rw [UInt8.toNat_add]
  split <;> omega

theorem toNat_sub_borrow (a b : UInt8) :
    ((a - b).toNat : Int) =
      a.toNat - b.toNat + 256 * (1 - if (b.toNat : Int) ≤ a.toNat then 1 else 0) := by
  have ha := a.toNat_lt
  have hb := b.toNat_lt
  rw [UInt8.toNat_sub]
  split <;> omega

theorem toNat_half_rest (a : UInt8) :
    2 * ((UInt8.ofNat (a.toNat / 2)).toNat : Int) + a.toNat % 2 = a.toNat := by
  have ha := a.toNat_lt
  rw [UInt8.toNat_ofNat']
  omega

theorem toNat_double_carry (a : UInt8) :
    ((a + a).toNat : Int) + 256 * (a.toNat / 128) = 2 * a.toNat := by
  have ha := a.toNat_lt
  rw [UInt8.toNat_add]
  omega

namespace Machine

variable {m : Machine} {ins : Instruction} {out : Outcome StepError}

/-! ## One instruction each -/

theorem computes_addTo (m : Machine) (x y : Register) :
    m.registers.Computes (m.addTo x (m.reg y)).registers (.add x y) :=
  Registers.flagged_set_set (if_congr Int.ofNat_le.symm rfl rfl)
    (toNat_add_carry (m.reg x) (m.reg y))

theorem computes_subtractFrom (m : Machine) (x y : Register) :
    m.registers.Computes (m.subtractFrom x (m.reg y)).registers (.sub x y) :=
  Registers.flagged_set_set (if_congr Int.ofNat_le.symm rfl rfl)
    (toNat_sub_borrow (m.reg x) (m.reg y))

theorem computes_subtractRegister (m : Machine) (x y : Register) :
    m.registers.Computes (m.subtractRegister x (m.reg y)).registers (.subFrom x y) :=
  Registers.flagged_set_set (if_congr Int.ofNat_le.symm rfl rfl)
    (toNat_sub_borrow (m.reg y) (m.reg x))

theorem computes_halve (m : Machine) (x : Register) :
    m.registers.Computes (m.halve x).registers (.shiftRight x) := by
  refine Registers.flagged_set_set ?_ (toNat_half_rest (m.reg x))
  show _ = ((m.reg x).toNat : Int) % 2
  split <;> omega

theorem computes_double (m : Machine) (x : Register) :
    m.registers.Computes (m.double x).registers (.shiftLeft x) := by
  have ha := (m.reg x).toNat_lt
  refine Registers.flagged_set_set ?_ (toNat_double_carry (m.reg x))
  show _ = ((m.reg x).toNat : Int) / 128
  split <;> omega

theorem computes_perform (m : Machine) (h : ins.IsArithmetic) :
    (m.perform ins).result = .ok .executed ∧
      m.registers.Computes (m.perform ins).machine.registers ins := by
  cases ins with
  | addByte x byte => exact ⟨rfl, m.registers.computes_addByte x byte⟩
  | add x y => exact ⟨rfl, m.computes_addTo x y⟩
  | sub x y => exact ⟨rfl, m.computes_subtractFrom x y⟩
  | subFrom x y => exact ⟨rfl, m.computes_subtractRegister x y⟩
  | shiftRight x => exact ⟨rfl, m.computes_halve x⟩
  | shiftLeft x => exact ⟨rfl, m.computes_double x⟩
  | _ => exact False.elim h

/-- **Arithmetic in integers.** However an arithmetic instruction comes to be performed and
whatever the registers hold, it runs to its end, and its result and flag are those of the
integers. -/
theorem arithmetic_in_integers (harithmetic : ins.IsArithmetic) (h : m.Performs ins out) :
    out.result = .ok .executed ∧ m.registers.Computes out.machine.registers ins := by
  obtain ⟨hresult, hcomputes⟩ := m.computes_perform harithmetic
  rw [h.data.2.registers]
  exact ⟨h.executed_iff.2 hresult, hcomputes⟩

/-- A machine with the program `ADD VF, V0` and registers whose sum is no byte. -/
def adding : Machine :=
  { fresh (.ofSeed 0 0 0 0) with
    memory := Memory.fresh.load #[0x8F, 0x04]
    registers := (Registers.zero.set .vF 200).set .v0 100 }

theorem performs_adding : adding.Performs (.add .vF .v0) adding.step := by
  have hholds : adding.Holds ⟨0x8F04⟩ :=
    holds_of_load (i := 0) rfl (by decide) (by decide) (by decide) (by decide)
  have hspells : Opcode.Spells ⟨0x8F04⟩ (.add .vF .v0) :=
    (by decide : 0x8F04 = 0x8 * 0x1000 + 15 * 0x100 + 0 * 0x10 + 0x4)
  exact .step hholds hspells

/-- The flag of the sum remains, not the sum. -/
theorem arithmetic_in_integers_adding :
    Instruction.IsArithmetic (.add .vF .v0) ∧ adding.Performs (.add .vF .v0) adding.step ∧
      adding.step.result = .ok .executed ∧ adding.step.machine.registers.number .vF = 1 := by
  have harithmetic : Instruction.IsArithmetic (.add .vF .v0) := trivial
  obtain ⟨hresult, hcomputes⟩ := arithmetic_in_integers harithmetic performs_adding
  have hcarry : 256 ≤ adding.registers.number .vF + adding.registers.number .v0 := by decide
  exact ⟨harithmetic, performs_adding, hresult, hcomputes.flag.trans (if_pos hcarry)⟩

end Machine

end Chip8
