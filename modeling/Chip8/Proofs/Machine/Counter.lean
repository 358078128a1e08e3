import Chip8.Proofs.Machine.Nesting

/-!
# What the cycle counter counts

A step `Completes` when it runs to its end while the host has asked neither to stop nor to pause.
Only such a step moves the counter, and it moves it by one, up to the limit (`react_cycles`).
Nothing else that happens to a machine moves it, short of starting over.

**Theorem (`counter_counts_completed_steps`).** After any run the counter stands at its first value
and the number of completed steps, cut off at the limit.
-/

namespace Chip8.Machine

/-- The event is a step that runs to its end while the host asks for nothing. -/
def Completes (m : Machine) (e : Event) : Prop :=
  e = .step ∧ m.step.result = .ok .executed ∧ m.control.stopped = false ∧ m.control.paused = false

instance (result : Except StepError Status) : Decidable (result = .ok .executed) :=
  match result with
  | .ok .executed => isTrue rfl
  | .ok .waiting => isFalse nofun
  | .error _ => isFalse nofun

instance (m : Machine) (e : Event) : Decidable (m.Completes e) :=
  inferInstanceAs (Decidable (_ ∧ _ ∧ _ ∧ _))

/-- How many of the events are completed steps. -/
def completedSteps (m : Machine) : List Event → Nat
  | [] => 0
  | e :: events =>
    (if m.Completes e then 1 else 0) + (m.react e).machine.completedSteps events

variable {m : Machine}

/-! ## One event -/

theorem execute_cycles (m : Machine) (ins : Instruction) :
    (m.execute ins).machine.cycles = m.cycles :=
  (m.keeps_perform ins).cycles

/-- A step that runs to its end counts unless the host has asked to stop or to pause, or the counter
is full. -/
theorem step_cycles_of_executed (h : m.step.result = .ok .executed) :
    m.step.machine.cycles =
      if m.control.stopped = false ∧ m.control.paused = false ∧ m.cycles < maxCycles then
        m.cycles + 1
      else m.cycles := by
  rcases m.step_cases with ⟨e, -, hstep⟩ | ⟨op, e, -, -, hstep⟩ | ⟨op, ins, -, -, hstep⟩
  · rw [hstep] at h
    cases h
  · rw [hstep] at h
    cases h
  · have hkeeps := (m.decoded op ins).keeps_perform ins
    rw [hstep, executeCounted_result, mapError_eq_ok_iff] at h
    rcases (m.decoded op ins).executeCounted_machine ins with ⟨-, hmachine⟩ | ⟨hnot, -⟩
    · rw [hstep, hmachine, countCycle_eq, hkeeps.control, hkeeps.cycles]
      rfl
    · exact absurd h hnot

theorem step_cycles_of_not_executed (h : m.step.result ≠ .ok .executed) :
    m.step.machine.cycles = m.cycles := by
  rcases m.step_cases with ⟨e, -, hstep⟩ | ⟨op, e, -, -, hstep⟩ | ⟨op, ins, -, -, hstep⟩
  · rw [hstep]
  · rw [hstep]
    rfl
  · rw [hstep, executeCounted_result] at h
    rcases (m.decoded op ins).executeCounted_machine ins with ⟨hexecuted, -⟩ | ⟨-, hmachine⟩
    · exact absurd (mapError_eq_ok_iff.2 hexecuted) h
    · rw [hstep, hmachine]
      exact ((m.decoded op ins).keeps_perform ins).cycles

theorem react_cycles_of_not_completes {e : Event} (hreset : e ≠ .reset) (h : ¬m.Completes e) :
    (m.react e).machine.cycles = m.cycles := by
  cases e with
  | step =>
    by_cases hexecuted : m.step.result = .ok .executed
    · rw [react, step_cycles_of_executed hexecuted, if_neg]
      exact fun hfree => h ⟨rfl, hexecuted, hfree.1, hfree.2.1⟩
    · exact step_cycles_of_not_executed hexecuted
  | reset => exact absurd rfl hreset
  | _ => rfl

/-- **One event.** A completed step moves the counter by one, up to the limit. -/
theorem react_cycles {e : Event} (hreset : e ≠ .reset) (h : m.cycles ≤ maxCycles) :
    (m.react e).machine.cycles = min maxCycles (m.cycles + if m.Completes e then 1 else 0) := by
  split
  · next hcompletes =>
    obtain ⟨rfl, hexecuted, hstopped, hpaused⟩ := hcompletes
    have hstep := step_cycles_of_executed hexecuted
    simp only [hstopped, hpaused, true_and] at hstep
    rw [react, hstep]
    split <;> omega
  · next hnot =>
    rw [react_cycles_of_not_completes hreset hnot]
    omega

/-! ## Runs -/

theorem cycles_after {events : List Event} (h : m.cycles ≤ maxCycles) (hreset : .reset ∉ events) :
    (m.after events).cycles = min maxCycles (m.cycles + m.completedSteps events) := by
  induction events generalizing m with
  | nil => exact (Nat.min_eq_right h).symm
  | cons e events ih =>
    obtain ⟨hne, hrest⟩ := List.ne_and_not_mem_of_not_mem_cons hreset
    have hreact := react_cycles (Ne.symm hne) h
    have hbound : (m.react e).machine.cycles ≤ maxCycles := hreact ▸ Nat.min_le_left _ _
    -- Both sides are cut off at the limit, so it does not matter when.
    rw [after, ih hbound hrest, hreact, completedSteps]
    omega

/-- **What the counter counts.** However long a run is, and whatever its steps lead to, the counter
has moved by the number of its completed steps, up to the limit. No other event and no instruction
moves it then. -/
theorem counter_counts_completed_steps {events : List Event} (h : m.cycles ≤ 2147483647)
    (hreset : .reset ∉ events) :
    (m.after events).cycles = min 2147483647 (m.cycles + m.completedSteps events) ∧
      (∀ e, e ≠ .reset → ¬(m.after events).Completes e →
        ((m.after events).react e).machine.cycles = (m.after events).cycles) ∧
      ∀ ins, ((m.after events).execute ins).machine.cycles = (m.after events).cycles :=
  ⟨cycles_after h hreset, fun _ hne hnot => react_cycles_of_not_completes hne hnot,
    fun ins => execute_cycles _ ins⟩

theorem completes_of_done {m' : Machine} {op : Opcode} {ins : Instruction} (hholds : m.Holds op)
    (hspells : op.Spells ins) (h : (m.decoded op ins).perform ins = done m')
    (hfree : m.control = {}) : m.Completes .step := by
  refine ⟨rfl, ?_, by rw [hfree], by rw [hfree]⟩
  rw [step_of_spells hholds hspells, executeCounted_of_done h]

/-- Of a run through that call, the call and the first instruction of the subroutine count. The
return does not, since it is executed while the machine is paused. -/
theorem completedSteps_of_calling (hmemory : m.memory = callingMemory) (hpc : m.pc = 0x200)
    (hcontrol : m.control = {}) : m.completedSteps [.step, .step, .pause, .step] = 2 := by
  have hcall : m.Holds ⟨0x2204⟩ := (holds_callingMemory hmemory).1 hpc
  obtain ⟨hmemory', hpc', -⟩ := step_of_done hcall spells_calling rfl
  have hset : m.step.machine.Holds ⟨0x6005⟩ :=
    (holds_callingMemory (hmemory'.trans hmemory)).2.1 hpc'
  have hspells : Opcode.Spells ⟨0x6005⟩ (.setByte .v0 5) :=
    (by decide : 0x6005 = 0x6 * 0x1000 + 0 * 0x100 + 0x05)
  have hcalled : m.Completes .step := completes_of_done hcall spells_calling rfl hcontrol
  have hmoved : (m.react .step).machine.Completes .step :=
    completes_of_done hset hspells rfl (m.step_keypad_control.2.trans hcontrol)
  have hpause (m : Machine) : ¬m.Completes .pause := fun h => nomatch h.1
  have hpaused (m : Machine) : ¬(m.react .pause).machine.Completes .step := fun h => nomatch h.2.2.2
  rw [completedSteps, if_pos hcalled, completedSteps, if_pos hmoved, completedSteps,
    if_neg (hpause _), completedSteps, if_neg (hpaused _), completedSteps]

/-- The machine of `calling` one instruction before the limit of its counter. -/
def nearlyFull : Machine :=
  { calling with cycles := 2147483646 }

theorem counter_counts_completed_steps_nearlyFull :
    nearlyFull.cycles ≤ 2147483647 ∧
      (nearlyFull.after [.step, .step, .pause, .step]).cycles = 2147483647 := by
  have hle : nearlyFull.cycles ≤ 2147483647 := by decide
  have hreset : Event.reset ∉ [.step, .step, .pause, .step] := by decide
  obtain ⟨hcount, -, -⟩ := counter_counts_completed_steps hle hreset
  refine ⟨hle, hcount.trans ?_⟩
  rw [completedSteps_of_calling rfl rfl rfl]
  decide

end Chip8.Machine
