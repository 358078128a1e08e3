import Chip8.Proofs.Generator
import Chip8.Proofs.Machine.Event
import Chip8.Proofs.Machine.Step

/-!
# The counter and the generator

A machine is `Steady` when its cycle counter has not passed its limit and its generator is not in
the state of four zeros. A counter is cut off wherever one comes in, and counting stops at the
limit. A generator is replaced wherever four zeros come in, and a draw never leads to them.
-/

namespace Chip8.Machine

/-- The cycle counter and the generator are in their ranges. -/
structure Steady (m : Machine) : Prop where
  cycles_le : m.cycles ≤ maxCycles
  generator_nonzero : m.generator.Nonzero

/-! ## Steps -/

theorem Steady.of_keeps {m m' : Machine} (h : m.Steady) (hkeeps : m.Keeps m') : m'.Steady where
  cycles_le := hkeeps.cycles ▸ h.cycles_le
  generator_nonzero := by
    rcases hkeeps.generator with hg | hg
    · rw [hg]
      exact h.generator_nonzero
    · rw [hg]
      exact Generator.nonzero_next h.generator_nonzero

theorem Steady.countCycle {m : Machine} (h : m.Steady) : m.countCycle.Steady := by
  rw [Machine.countCycle]
  split
  · next hcounts =>
    have hlt : m.cycles < maxCycles := (counts_iff.1 hcounts).2.2
    exact ⟨hlt, h.generator_nonzero⟩
  · exact h

theorem Steady.executeCounted {m : Machine} (h : m.Steady) (ins : Instruction) :
    (m.executeCounted ins).machine.Steady := by
  have hperform := h.of_keeps (m.keeps_perform ins)
  rcases m.executeCounted_machine ins with ⟨-, hmachine⟩ | ⟨-, hmachine⟩
  · rw [hmachine]
    exact hperform.countCycle
  · rw [hmachine]
    exact hperform

theorem Steady.step {m : Machine} (h : m.Steady) : m.step.machine.Steady := by
  rcases m.step_cases with ⟨e, -, hstep⟩ | ⟨op, e, -, -, hstep⟩ | ⟨op, ins, -, -, hstep⟩
  · rw [hstep]
    exact h
  · rw [hstep]
    exact ⟨h.cycles_le, h.generator_nonzero⟩
  · have hdecoded : (m.decoded op ins).Steady := ⟨h.cycles_le, h.generator_nonzero⟩
    rw [hstep]
    exact hdecoded.executeCounted ins

/-! ## Everything else that happens -/

theorem steady_fresh (x y z w : UInt32) : (fresh (.ofSeed x y z w)).Steady :=
  ⟨Nat.zero_le _, Generator.nonzero_ofSeed x y z w⟩

theorem Steady.reset {m : Machine} (h : m.Steady) : m.reset.Steady :=
  ⟨Nat.zero_le _, h.generator_nonzero⟩

theorem Steady.react {m : Machine} (h : m.Steady) (e : Event) : (m.react e).machine.Steady := by
  cases e with
  | step => exact h.step
  | reset => exact h.reset
  | _ => exact ⟨h.cycles_le, h.generator_nonzero⟩

theorem steady_overwrite (m : Machine) (memory : Memory) (s : SaveState) :
    (m.overwrite memory s).Steady :=
  ⟨Nat.min_le_right _ _, Generator.nonzero_ofBytes s.generator⟩

theorem Steady.restoring {m : Machine} (h : m.Steady) (s : SaveState) :
    (m.restoring s).machine.Steady := by
  rw [Machine.restoring]
  split
  · exact h
  · split
    · exact h
    · exact m.steady_overwrite _ s

end Chip8.Machine
