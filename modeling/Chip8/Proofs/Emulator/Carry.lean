import Chip8.Proofs.Binary64
import Chip8.Proofs.Emulator.Batch
import Chip8.Proofs.Machine.Nesting
import Mathlib.Algebra.Order.BigOperators.Group.List

/-!
# Batches that carry their rest over

The driver gives each batch what the batch before left and what has come to be owed since.

**Theorem (`batches_carry_the_rest`).** Such batches execute together as many instructions as the
amounts hold whole in sum, and leave the fraction of the sum.

Each rest is at least zero and less than one, so the whole part of the sum is that of the present
amount and that of all the rest (`floor_add_carried`).
-/

namespace Chip8.Emulator

open Binary64 (Denotes)

variable {e : Emulator} {owed : Rat}

/-! ## Batches of floating-point amounts -/

theorem executeCycles_of_denotes {amount : Float} (h : Denotes amount owed) :
    e.executeCycles amount =
      { emulator := (e.runOwed owed).emulator
        notices := (e.runOwed owed).notices
        value := if (e.runOwed owed).value = owed then amount
          else Binary64.toFloat (e.runOwed owed).value } := by
  rw [executeCycles, h]

theorem Pays.value_eq {r : Reply Rat} (h : e.Pays owed r) :
    r.value = owed ∨ r.value = owed - ⌊owed⌋₊ := by
  cases h with
  | stopped => exact .inl rfl
  | finished => exact .inr rfl
  | waiting => exact .inr rfl
  | failed => exact .inr rfl

theorem denotes_executeCycles {amount : Float} (h : Denotes amount owed) :
    Denotes (e.executeCycles amount).value (e.runOwed owed).value := by
  rw [executeCycles_of_denotes h]
  by_cases hall : (e.runOwed owed).value = owed
  · simp only [if_pos hall]
    rw [hall]
    exact h
  · have hvalue := (e.runOwed_pays owed).value_eq.resolve_left hall
    have hone : 1 ≤ owed := by
      by_contra hlt
      rw [Nat.floor_eq_zero.2 (not_le.1 hlt), Nat.cast_zero, sub_zero] at hvalue
      exact hall hvalue
    have hfract : (e.runOwed owed).value = Int.fract owed := by
      rw [hvalue, ← fraction_eq (zero_le_one.trans hone)]
      rfl
    simp only [if_neg hall]
    rw [hfract]
    exact Binary64.denotes_toFloat_fract h hone

/-- Read exactly, a batch of a floating-point amount is the batch of the number that it is. -/
theorem pays_executeCycles {amount : Float} (h : Denotes amount owed) :
    ∃ rest, Denotes (e.executeCycles amount).value rest ∧
      e.Pays owed
        { emulator := (e.executeCycles amount).emulator
          notices := (e.executeCycles amount).notices
          value := rest } := by
  refine ⟨(e.runOwed owed).value, denotes_executeCycles h, ?_⟩
  rw [executeCycles_of_denotes h]
  exact e.runOwed_pays owed

/-! ## Carrying over -/

/-- Batches one after the other. Each is for what the one before left and a new amount. -/
def payEach (e : Emulator) (rest : Rat) : List Rat → Reply Rat
  | [] => { emulator := e, value := rest }
  | amount :: amounts =>
    let r := e.runOwed (rest + amount)
    let later := r.emulator.payEach r.value amounts
    { later with notices := r.notices ++ later.notices }

/-- Calls with floating-point amounts one after the other. Each amount is exactly what the call
before left and a new one. From `2 ^ 53` on the loop does not count down exactly, so no amount
comes so far. -/
inductive Calls : Emulator → Rat → List Rat → Reply Rat → Prop
  | nil (e : Emulator) (rest : Rat) : Calls e rest [] { emulator := e, value := rest }
  | cons {e : Emulator} {rest amount left : Rat} {amounts : List Rat} {owed : Float}
      {later : Reply Rat} :
      Denotes owed (rest + amount) → rest + amount < 2 ^ 53 →
      Denotes (e.executeCycles owed).value left →
      Calls (e.executeCycles owed).emulator left amounts later →
      Calls e rest (amount :: amounts)
        { later with notices := (e.executeCycles owed).notices ++ later.notices }

/-- Calls do what the batches of the exact amounts do. -/
theorem Calls.eq_payEach {rest : Rat} {amounts : List Rat} {r : Reply Rat}
    (h : Calls e rest amounts r) : r = e.payEach rest amounts := by
  induction h with
  | nil => rfl
  | @cons e rest amount left amounts owed later howed _ hleft _ ih =>
    have hvalue : left = (e.runOwed (rest + amount)).value :=
      hleft.eq (denotes_executeCycles howed)
    rw [ih, executeCycles_of_denotes howed, hvalue]
    rfl

theorem floor_add_carried {later : Rat} (howed : 0 ≤ owed) (hlater : 0 ≤ later) :
    ⌊owed + later⌋₊ = ⌊owed⌋₊ + ⌊owed - ⌊owed⌋₊ + later⌋₊ := by
  have hsplit : owed + later = owed - ⌊owed⌋₊ + later + ⌊owed⌋₊ := by ring
  have hleft : 0 ≤ owed - ⌊owed⌋₊ := sub_nonneg.2 (Nat.floor_le howed)
  rw [hsplit, Nat.floor_add_natCast (add_nonneg hleft hlater), Nat.add_comm]

/-- Batches execute what their amounts hold whole in sum. -/
theorem payEach_of_executes {rest : Rat} {amounts : List Rat} (hrun : e.isStopped = false)
    (hnonneg : 0 ≤ rest) (hlt : rest < 1) (hamounts : ∀ amount ∈ amounts, 0 ≤ amount)
    (h : e.Executes ⌊rest + amounts.sum⌋₊) :
    e.payEach rest amounts =
      { emulator := e.stepped ⌊rest + amounts.sum⌋₊
        notices := e.toldIn ⌊rest + amounts.sum⌋₊
        value := rest + amounts.sum - ⌊rest + amounts.sum⌋₊ } := by
  -- What carries the induction is that every rest is a proper fraction.
  induction amounts generalizing e rest with
  | nil =>
    have hzero : ⌊rest⌋₊ = 0 := Nat.floor_eq_zero.2 hlt
    rw [List.sum_nil, add_zero, hzero, Nat.cast_zero, sub_zero]
    rfl
  | cons amount amounts ih =>
    obtain ⟨hamount, hlater⟩ := List.forall_mem_cons.1 hamounts
    have howed : 0 ≤ rest + amount := add_nonneg hnonneg hamount
    rw [payEach]
    rw [List.sum_cons, ← add_assoc] at h ⊢
    generalize rest + amount = owed at howed h ⊢
    have hleft : 0 ≤ owed - ⌊owed⌋₊ := sub_nonneg.2 (Nat.floor_le howed)
    have hless : owed - ⌊owed⌋₊ < 1 := sub_lt_iff_lt_add'.2 (Nat.lt_floor_add_one owed)
    have hvalue (n : Nat) : owed + amounts.sum - ((⌊owed⌋₊ + n : Nat) : Rat) =
        owed - ⌊owed⌋₊ + amounts.sum - n := by
      push_cast
      ring
    rw [floor_add_carried howed (List.sum_nonneg hlater)] at h ⊢
    have hfirst := runOwed_of_executes hrun (h.mono (Nat.le_add_right _ _))
    have hrest := ih ((e.isStopped_stepped _).trans hrun) hleft hless hlater h.drop
    rw [hfirst, hvalue, stepped_add, toldIn_add]
    simp only [hrest]

/-- **Batches lose and duplicate no instruction.** A call on a stopped machine gives back what it
is given. Any other executes, by steps one after the other, what the amount holds whole, up to a
step that waits or fails, and leaves the fraction. Calls that carry the rest over execute together
what their amounts hold whole in sum and leave the fraction of the sum. -/
theorem batches_carry_the_rest (e : Emulator) :
    (e.isStopped = true → ∀ owed : Float,
      e.executeCycles owed = { emulator := e, notices := [], value := owed }) ∧
    (∀ (owed : Float) (amount : Rat), Denotes owed amount → 0 ≤ amount → amount < 2 ^ 53 →
      ∃ rest, Denotes (e.executeCycles owed).value rest ∧
        e.Pays amount
          { emulator := (e.executeCycles owed).emulator
            notices := (e.executeCycles owed).notices
            value := rest }) ∧
    (∀ amounts : List Rat, e.isStopped = false → (∀ amount ∈ amounts, 0 ≤ amount) →
      e.Executes ⌊amounts.sum⌋₊ → ∀ r, (r = e.payEach 0 amounts ∨ e.Calls 0 amounts r) →
        r = { emulator := e.stepped ⌊amounts.sum⌋₊
              notices := e.toldIn ⌊amounts.sum⌋₊
              value := Int.fract amounts.sum }) := by
  refine ⟨fun h owed => executeCycles_of_isStopped h owed, fun _ _ h _ _ => pays_executeCycles h,
    fun amounts hrun hamounts hexec r hr => ?_⟩
  have heach : r = e.payEach 0 amounts := hr.elim id Calls.eq_payEach
  have hfract : Int.fract amounts.sum = amounts.sum - ⌊amounts.sum⌋₊ :=
    fraction_eq (List.sum_nonneg hamounts)
  have hpaid := payEach_of_executes hrun (le_refl (0 : Rat)) zero_lt_one hamounts
  rw [zero_add] at hpaid
  rw [heach, hpaid hexec, hfract]

/-- A memory with the program `JP #200`, which jumps to itself. -/
@[irreducible] def loopingMemory : Memory :=
  Memory.fresh.load #[0x12, 0x00]

/-- An emulator with that program. -/
def looping : Emulator where
  machine := { Machine.fresh (.ofSeed 0 0 0 0) with memory := loopingMemory }
  speed := ⟨1, Options.isSpeed_default⟩
  clock := none
  options := .testing

theorem loopingMemory_eq : loopingMemory = Memory.fresh.load #[0x12, 0x00] := by
  unfold loopingMemory
  rfl

theorem step_looping {m : Machine} (hmemory : m.memory = loopingMemory) (hpc : m.pc = 0x200) :
    m.step.result = .ok .executed ∧ m.step.machine.memory = loopingMemory ∧
      m.step.machine.pc = 0x200 := by
  have hat : m.pc.toNat = Memory.programStart + 0 := by rw [hpc]; decide
  have hholds : m.Holds ⟨0x1200⟩ :=
    Machine.holds_of_load (hmemory.trans loopingMemory_eq) hat (by decide) (by decide)
      (by decide : 0x1200 = 0x12 * 256 + 0x00)
  have hspells : Opcode.Spells ⟨0x1200⟩ (.jump 0x200) := ⟨by decide, by decide⟩
  obtain ⟨hmemory', hpc', -⟩ := Machine.step_of_done hholds hspells rfl
  refine ⟨?_, hmemory'.trans hmemory, hpc'⟩
  rw [Machine.step_of_spells hholds hspells, Machine.executeCounted_result]
  rfl

theorem executes_looping {e : Emulator} (hmemory : e.machine.memory = loopingMemory)
    (hpc : e.machine.pc = 0x200) (n : Nat) : e.Executes n := by
  induction n generalizing e with
  | zero => exact e.executes_zero
  | succ n ih =>
    obtain ⟨hresult, hmemory', hpc'⟩ := step_looping hmemory hpc
    exact executes_succ.2 ⟨hresult, ih hmemory' hpc'⟩

theorem calls_looping : ∃ r, looping.Calls 0 [11 / 4, 1 / 2] r := by
  have hfirst : Denotes 2.75 (0 + 11 / 4) := by decide +kernel
  have hrest : Denotes (looping.executeCycles 2.75).value (3 / 4) := by
    have hleft := denotes_executeCycles (e := looping) hfirst
    rw [runOwed_of_executes rfl (executes_looping rfl rfl _)] at hleft
    have hfloor : ⌊(0 + 11 / 4 : Rat)⌋₊ = 2 := (Nat.floor_eq_iff (by norm_num)).2 (by norm_num)
    have hvalue : (0 + 11 / 4 - ⌊(0 + 11 / 4 : Rat)⌋₊ : Rat) = 3 / 4 := by
      rw [hfloor]
      norm_num
    rw [← hvalue]
    exact hleft
  have hsecond : Denotes 1.25 (3 / 4 + 1 / 2) := by decide +kernel
  obtain ⟨left, hleft, -⟩ := pays_executeCycles (e := (looping.executeCycles 2.75).emulator) hsecond
  exact ⟨_, .cons hfirst (by norm_num) hrest (.cons hsecond (by norm_num) hleft (.nil _ _))⟩

theorem batches_carry_the_rest_looping :
    looping.stop.emulator.executeCycles 2.75 =
        { emulator := looping.stop.emulator, notices := [], value := 2.75 } ∧
      (∃ rest, Denotes (looping.executeCycles 2.75).value rest ∧
        looping.Pays (11 / 4)
          { emulator := (looping.executeCycles 2.75).emulator
            notices := (looping.executeCycles 2.75).notices
            value := rest }) ∧
      ∃ r, looping.Calls 0 [11 / 4, 1 / 2] r ∧
        r = { emulator := looping.stepped 3, notices := looping.toldIn 3, value := 1 / 4 } := by
  have hdenotes : Denotes 2.75 (11 / 4) := by decide +kernel
  obtain ⟨r, hcalls⟩ := calls_looping
  obtain ⟨-, hpays, heach⟩ := batches_carry_the_rest looping
  refine ⟨(batches_carry_the_rest looping.stop.emulator).1 rfl 2.75,
    hpays 2.75 (11 / 4) hdenotes (by norm_num) (by norm_num), r, hcalls, ?_⟩
  have hall := heach [11 / 4, 1 / 2] rfl (by norm_num) (executes_looping rfl rfl _) r (.inr hcalls)
  have hfloor : ⌊([11 / 4, 1 / 2] : List Rat).sum⌋₊ = 3 :=
    (Nat.floor_eq_iff (by norm_num)).2 (by norm_num)
  have hfract : Int.fract ([11 / 4, 1 / 2] : List Rat).sum = 1 / 4 := by norm_num
  rw [hall, hfloor, hfract]

end Chip8.Emulator
