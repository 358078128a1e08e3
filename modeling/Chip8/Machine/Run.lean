import Chip8.Machine.Step

/-!
# Runs of steps

A run executes one step after another until a given number of them is executed. A key wait
and a failure end it early.
-/

namespace Chip8.Machine

/-- How far a run has come. What came last stands first in its lists. -/
structure Run where
  machine : Machine
  /-- The number of instructions executed. -/
  executed : Nat := 0
  signals : List Signal := []
  /-- The program counter after each step. -/
  trail : List UInt16 := []
  /-- What the latest step gave. -/
  result : Except StepError Status := .ok .executed

namespace Run

/-- The run with the outcome of one more step. -/
def add (r : Run) (out : Outcome StepError) : Run where
  machine := out.machine
  executed := match out.result with
    | .ok .executed => r.executed + 1
    | _ => r.executed
  signals := out.signals.reverse ++ r.signals
  trail := out.machine.pc :: r.trail
  result := out.result

/-- Goes on for up to `n` steps. -/
def extend : Nat → Run → Run
  | 0, r => r
  | n + 1, r =>
    let r := r.add r.machine.step
    match r.result with
    | .ok .executed => extend n r
    | _ => r

end Run

/-- A run of up to `n` steps. -/
def run (m : Machine) (n : Nat) : Run :=
  Run.extend n { machine := m }

end Chip8.Machine
