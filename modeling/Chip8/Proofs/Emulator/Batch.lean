import Chip8.Emulator.Batch
import Chip8.Proofs.Machine.Step
import Mathlib.Algebra.Order.Floor.Semiring
import Mathlib.Data.Rat.Floor

/-!
# What a batch executes and what it leaves

A batch is a countdown with three ways out (`Pays`), and each of them reckons the rest in its own
way. It executes as many instructions as the amount holds whole, unless one of them waits for a key
or fails; that one is the last. The whole part of the amount is lost and nothing of its fraction.

**Theorem (`runOwed_pays`).** Every batch ends in one of these ways.
-/

namespace Chip8.Emulator

/-! ## Steps one after the other -/

/-- The emulator after `n` steps. -/
def stepped (e : Emulator) : Nat → Emulator
  | 0 => e
  | n + 1 => e.step.emulator.stepped n

/-- What the host is told in `n` steps. -/
def toldIn (e : Emulator) : Nat → List Notice
  | 0 => []
  | n + 1 => e.step.notices ++ e.step.emulator.toldIn n

/-- What the step after `n` others gives. -/
def outcome (e : Emulator) (n : Nat) : Except StepError Status :=
  (e.stepped n).step.value

/-- The next `n` steps run their instructions to the end. -/
def Executes (e : Emulator) (n : Nat) : Prop :=
  ∀ k < n, e.outcome k = .ok .executed

variable {e : Emulator} {owed : Rat} {n : Nat}

theorem stepped_add (e : Emulator) (m n : Nat) : e.stepped (m + n) = (e.stepped m).stepped n := by
  induction m generalizing e with
  | zero => rw [Nat.zero_add, stepped]
  | succ m ih => rw [Nat.add_right_comm, stepped, ih, stepped]

theorem toldIn_add (e : Emulator) (m n : Nat) :
    e.toldIn (m + n) = e.toldIn m ++ (e.stepped m).toldIn n := by
  induction m generalizing e with
  | zero => rw [Nat.zero_add, stepped, toldIn, List.nil_append]
  | succ m ih => rw [Nat.add_right_comm, toldIn, ih, toldIn, stepped, List.append_assoc]

theorem executes_zero (e : Emulator) : e.Executes 0 :=
  fun _ hk => absurd hk (Nat.not_lt_zero _)

theorem executes_succ :
    e.Executes (n + 1) ↔ e.step.value = .ok .executed ∧ e.step.emulator.Executes n := by
  constructor
  · intro h
    exact ⟨h 0 (Nat.succ_pos n), fun k hk => h (k + 1) (Nat.succ_lt_succ hk)⟩
  · intro hfacts k hk
    obtain ⟨hfirst, hrest⟩ := hfacts
    cases k with
    | zero => exact hfirst
    | succ k => exact hrest k (Nat.lt_of_succ_lt_succ hk)

theorem Executes.mono {m : Nat} (h : e.Executes n) (hle : m ≤ n) : e.Executes m :=
  fun k hk => h k (Nat.lt_of_lt_of_le hk hle)

theorem Executes.drop {m : Nat} (h : e.Executes (m + n)) : (e.stepped m).Executes n := by
  intro k hk
  rw [outcome, ← stepped_add]
  exact h (m + k) (Nat.add_lt_add_left hk m)

theorem isStopped_step (e : Emulator) : e.step.emulator.isStopped = e.isStopped :=
  congrArg Control.stopped e.machine.step_keypad_control.2

theorem isStopped_stepped (e : Emulator) (n : Nat) : (e.stepped n).isStopped = e.isStopped := by
  induction n generalizing e with
  | zero => rfl
  | succ n ih => rw [stepped, ih, isStopped_step]

/-! ## One attempt -/

theorem attempt_of_executed (h : e.step.value = .ok .executed) :
    e.attempt = { emulator := e.step.emulator, notices := e.step.notices, value := .finished } := by
  rw [attempt, h]

theorem attempt_of_waiting (h : e.step.value = .ok .waiting) :
    e.attempt = { emulator := e.step.emulator, notices := e.step.notices, value := .waiting } := by
  rw [attempt, h]

theorem attempt_of_error {error : StepError} (h : e.step.value = .error error) :
    e.attempt =
      { emulator := e.step.emulator.withMachine .stop
        notices := e.step.notices ++ failureLines error e.step.emulator.machine
        value := .failed } := by
  rw [attempt, h]

/-! ## The loop of a batch -/

theorem payFrom_of_idle {told : List Notice} (h : ¬(1 ≤ owed ∧ e.isStopped = false)) :
    e.payFrom owed told = { emulator := e, notices := told.reverse, value := owed } := by
  rw [payFrom, if_neg h]

theorem payFrom_of_finished {told : List Notice} (hone : 1 ≤ owed) (hrun : e.isStopped = false)
    (h : e.attempt.value = .finished) :
    e.payFrom owed told =
      e.attempt.emulator.payFrom (owed - 1) (e.attempt.notices.reverse ++ told) := by
  rw [payFrom, if_pos ⟨hone, hrun⟩]
  simp only [h]

theorem payFrom_of_ended {told : List Notice} (hone : 1 ≤ owed) (hrun : e.isStopped = false)
    (h : e.attempt.value ≠ .finished) :
    e.payFrom owed told =
      { emulator := e.attempt.emulator
        notices := told.reverse ++ e.attempt.notices
        value := fraction owed } := by
  rw [payFrom, if_pos ⟨hone, hrun⟩]
  cases hvalue : e.attempt.value with
  | finished => exact absurd hvalue h
  | waiting => simp [hvalue]
  | failed => simp [hvalue]

theorem payFrom_append (e : Emulator) (owed : Rat) (told before : List Notice) :
    e.payFrom owed (told ++ before) =
      { e.payFrom owed told with
        notices := before.reverse ++ (e.payFrom owed told).notices } := by
  fun_induction payFrom e owed told with
  | case1 e owed told h r told' hr ih =>
    rw [payFrom_of_finished h.1 h.2 hr, ← List.append_assoc]
    exact ih
  | case2 e owed told h r told' hr =>
    rw [payFrom_of_ended h.1 h.2 hr]
    simp [told', r]
  | case3 e owed told h =>
    rw [payFrom_of_idle h, List.reverse_append]

/-- After an executed instruction a batch is the batch of what is owed less. -/
theorem runOwed_of_executed (hone : 1 ≤ owed) (hrun : e.isStopped = false)
    (h : e.step.value = .ok .executed) :
    e.runOwed owed =
      { e.step.emulator.runOwed (owed - 1) with
        notices := e.step.notices ++ (e.step.emulator.runOwed (owed - 1)).notices } := by
  have hattempt := attempt_of_executed h
  rw [runOwed, payFrom_of_finished hone hrun (by rw [hattempt]), hattempt]
  have happend := e.step.emulator.payFrom_append (owed - 1) [] e.step.notices.reverse
  rw [List.reverse_reverse, List.nil_append] at happend
  rw [List.append_nil, happend]
  rfl

theorem runOwed_of_waiting (hone : 1 ≤ owed) (hrun : e.isStopped = false)
    (h : e.step.value = .ok .waiting) :
    e.runOwed owed =
      { emulator := e.step.emulator, notices := e.step.notices, value := fraction owed } := by
  have hattempt := attempt_of_waiting h
  rw [runOwed, payFrom_of_ended hone hrun (by simp [hattempt]), hattempt]
  rfl

theorem runOwed_of_error {error : StepError} (hone : 1 ≤ owed) (hrun : e.isStopped = false)
    (h : e.step.value = .error error) :
    e.runOwed owed =
      { emulator := e.step.emulator.withMachine .stop
        notices := e.step.notices ++ failureLines error e.step.emulator.machine
        value := fraction owed } := by
  have hattempt := attempt_of_error h
  rw [runOwed, payFrom_of_ended hone hrun (by simp [hattempt]), hattempt]
  rfl

/-! ## One batch -/

/-- What a batch for an owed amount must leave behind. -/
inductive Pays (e : Emulator) (owed : Rat) : Reply Rat → Prop
  /-- A stopped machine executes nothing and all is still owed. -/
  | stopped : e.isStopped = true → Pays e owed { emulator := e, notices := [], value := owed }
  /-- As many instructions are executed as the amount holds whole. -/
  | finished : e.isStopped = false → e.Executes ⌊owed⌋₊ →
      Pays e owed
        { emulator := e.stepped ⌊owed⌋₊
          notices := e.toldIn ⌊owed⌋₊
          value := owed - ⌊owed⌋₊ }
  /-- The instruction after `n` others waits for a key. -/
  | waiting {n : Nat} : e.isStopped = false → n < ⌊owed⌋₊ → e.Executes n →
      e.outcome n = .ok .waiting → (e.stepped (n + 1)).isStopped = false →
      Pays e owed
        { emulator := e.stepped (n + 1)
          notices := e.toldIn (n + 1)
          value := owed - ⌊owed⌋₊ }
  /-- The instruction after `n` others fails, and this stops the machine. -/
  | failed {n : Nat} {error : StepError} : e.isStopped = false → n < ⌊owed⌋₊ → e.Executes n →
      e.outcome n = .error error →
      Pays e owed
        { emulator := (e.stepped (n + 1)).withMachine .stop
          notices := e.toldIn (n + 1) ++ failureLines error (e.stepped (n + 1)).machine
          value := owed - ⌊owed⌋₊ }

theorem fraction_eq (h : 0 ≤ owed) : fraction owed = owed - ⌊owed⌋₊ := by
  rw [natCast_floor_eq_intCast_floor h]
  rfl

/-- A batch that begins with an executed instruction goes on as the batch of what is owed less. -/
theorem Pays.cons {r : Reply Rat} (hone : 1 ≤ owed) (hrun : e.isStopped = false)
    (h : e.step.value = .ok .executed) (hrest : e.step.emulator.Pays (owed - 1) r) :
    e.Pays owed { r with notices := e.step.notices ++ r.notices } := by
  -- The rest owes one cycle less: the whole part is one less, the fraction the same.
  have hfloor : ⌊owed - 1⌋₊ + 1 = ⌊owed⌋₊ := by
    rw [Nat.floor_sub_one]
    have := Nat.floor_pos.2 hone
    omega
  have hvalue : owed - 1 - (⌊owed - 1⌋₊ : Rat) = owed - (⌊owed⌋₊ : Rat) := by
    rw [← hfloor]
    push_cast
    ring
  cases hrest with
  | stopped hstopped =>
    rw [isStopped_step, hrun] at hstopped
    cases hstopped
  | finished _ hexec =>
    have hall : e.Executes ⌊owed⌋₊ := by
      rw [← hfloor]
      exact executes_succ.2 ⟨h, hexec⟩
    have hpays := Pays.finished hrun hall
    rw [← hvalue, ← hfloor] at hpays
    exact hpays
  | @waiting n _ hn hexec hwait hclear =>
    have hlt : n + 1 < ⌊owed⌋₊ := by omega
    have hpays := Pays.waiting hrun hlt (executes_succ.2 ⟨h, hexec⟩) hwait hclear
    rw [← hvalue] at hpays
    exact hpays
  | @failed n error _ hn hexec herror =>
    have hlt : n + 1 < ⌊owed⌋₊ := by omega
    have hpays := Pays.failed hrun hlt (executes_succ.2 ⟨h, hexec⟩) herror
    rw [← hvalue, toldIn, List.append_assoc] at hpays
    exact hpays

/-- A batch that is not worth one instruction executes none. -/
theorem pays_of_lt_one (hrun : e.isStopped = false) (h : owed < 1) :
    e.Pays owed { emulator := e, notices := [], value := owed } := by
  have hzero : ⌊owed⌋₊ = 0 := Nat.floor_eq_zero.2 h
  have hpays := Pays.finished hrun (hzero ▸ e.executes_zero)
  rw [hzero, Nat.cast_zero, sub_zero] at hpays
  exact hpays

theorem pays_of_waiting (hone : 1 ≤ owed) (hrun : e.isStopped = false)
    (h : e.step.value = .ok .waiting) : e.Pays owed (e.runOwed owed) := by
  have hclear : (e.stepped 1).isStopped = false := (e.isStopped_stepped 1).trans hrun
  have hpays := Pays.waiting hrun (Nat.floor_pos.2 hone) e.executes_zero h hclear
  rw [runOwed_of_waiting hone hrun h, fraction_eq (zero_le_one.trans hone)]
  rw [toldIn, toldIn, List.append_nil] at hpays
  exact hpays

theorem pays_of_error {error : StepError} (hone : 1 ≤ owed) (hrun : e.isStopped = false)
    (h : e.step.value = .error error) : e.Pays owed (e.runOwed owed) := by
  have hpays := Pays.failed hrun (Nat.floor_pos.2 hone) e.executes_zero h
  rw [runOwed_of_error hone hrun h, fraction_eq (zero_le_one.trans hone)]
  rw [toldIn, toldIn, List.append_nil] at hpays
  exact hpays

/-- **What a batch does.** -/
theorem runOwed_pays (e : Emulator) (owed : Rat) : e.Pays owed (e.runOwed owed) := by
  -- The countdown of the loop takes one off the whole part each time.
  induction hn : ⌊owed⌋₊ generalizing e owed with
  | zero =>
    have hlt : owed < 1 := Nat.floor_eq_zero.1 hn
    rw [runOwed, payFrom_of_idle (fun h => absurd h.1 (not_le.2 hlt))]
    cases hrun : e.isStopped with
    | true => exact .stopped hrun
    | false => exact pays_of_lt_one hrun hlt
  | succ n ih =>
    have hone : 1 ≤ owed := Nat.floor_pos.1 (by omega)
    cases hrun : e.isStopped with
    | true =>
      rw [runOwed, payFrom_of_idle (by simp [hrun])]
      exact .stopped hrun
    | false =>
      cases hstep : e.step.value with
      | error error => exact pays_of_error hone hrun hstep
      | ok status =>
        cases status with
        | waiting => exact pays_of_waiting hone hrun hstep
        | executed =>
          have hrest : ⌊owed - 1⌋₊ = n := by rw [Nat.floor_sub_one, hn, Nat.add_sub_cancel]
          rw [runOwed_of_executed hone hrun hstep]
          exact (ih _ _ hrest).cons hone hrun hstep

/-- If nothing ends a batch early, it executes all that was owed whole. -/
theorem runOwed_of_executes (hrun : e.isStopped = false) (h : e.Executes ⌊owed⌋₊) :
    e.runOwed owed =
      { emulator := e.stepped ⌊owed⌋₊
        notices := e.toldIn ⌊owed⌋₊
        value := owed - ⌊owed⌋₊ } := by
  have hpays := e.runOwed_pays owed
  generalize e.runOwed owed = r at hpays ⊢
  cases hpays with
  | stopped hstopped => cases hrun.symm.trans hstopped
  | finished => rfl
  | waiting _ hlt _ hwait => cases (h _ hlt).symm.trans hwait
  | failed _ hlt _ herror => cases (h _ hlt).symm.trans herror

/-- A stopped machine gives back whatever it is given, be it a number or not. -/
theorem executeCycles_of_isStopped (h : e.isStopped = true) (amount : Float) :
    e.executeCycles amount = { emulator := e, notices := [], value := amount } := by
  rw [executeCycles]
  split
  · next q hq =>
    rw [runOwed, payFrom_of_idle (by simp [h])]
    simp
  · simp [h]

end Chip8.Emulator
