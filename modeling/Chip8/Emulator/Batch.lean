import Chip8.Emulator

/-!
# Batches of instructions

The driver owes instructions for the time that has passed. It executes as many as the owed
amount holds whole and carries the fraction over.

* A key wait ends a batch, and so does a failed instruction, which also stops the machine.
  Either way the whole part of what was owed is gone and the fraction is left.
* A stopped machine executes nothing and keeps owing all.
-/

namespace Chip8

/-- How a batch ended. -/
inductive BatchEnd where
  | finished
  | waiting
  | failed
deriving DecidableEq

namespace Emulator

/-! ## One step -/

/-- Whether a step got as far as an instruction. -/
def decoded : Except StepError Status → Bool
  | .ok _ => true
  | .error (.execute _ _) => true
  | .error _ => false

/-- The log line of a decoded instruction, if instructions are traced. -/
def traceNotices (e : Emulator) (out : Outcome StepError) : List Notice :=
  if e.options.traced && decoded out.result then [.line .trace out.machine.trace] else []

def step (e : Emulator) : Reply (Except StepError Status) :=
  let out := e.machine.step
  { emulator := { e with machine := out.machine }
    notices := e.traceNotices out ++ e.heard out.signals
    value := out.result }

/-- The log lines of a failed instruction: the error, its causes and the machine. -/
def failureLines (error : StepError) (m : Machine) : List Notice :=
  (error.messages.take 1).map (.line .error ·)
    ++ (error.messages.drop 1).map (fun cause => .line .error ("caused by: " ++ cause))
    ++ [.line .error ("machine state:\n" ++ m.dump)]

/-! ## Batches -/

/-- Executes one instruction of a batch and tells whether that ends the batch. A failed
instruction stops the machine. -/
def attempt (e : Emulator) : Reply BatchEnd :=
  let r := e.step
  match r.value with
  | .ok .executed => { emulator := r.emulator, notices := r.notices, value := .finished }
  | .ok .waiting => { emulator := r.emulator, notices := r.notices, value := .waiting }
  | .error error =>
    { emulator := r.emulator.withMachine .stop
      notices := r.notices ++ failureLines error r.emulator.machine
      value := .failed }

/-- Executes up to `n` instructions, with the notices told before in reverse. -/
def runFrom : Nat → Emulator → List Notice → Reply BatchEnd
  | 0, e, told => { emulator := e, notices := told.reverse, value := .finished }
  | n + 1, e, told =>
    let r := e.attempt
    let told := r.notices.reverse ++ told
    match r.value with
    | .finished => runFrom n r.emulator told
    | ended => { emulator := r.emulator, notices := told.reverse, value := ended }

/-- Executes up to `n` instructions. -/
def runBatch (e : Emulator) (n : Nat) : Reply BatchEnd :=
  runFrom n e []

/-- The part of an amount that is less than one instruction. -/
def fraction (owed : Rat) : Rat :=
  owed - owed.floor

/-- Executes instructions as long as a whole one is owed and the machine is not stopped, with
the notices told before in reverse. A batch that ends early leaves only the fraction. -/
def payFrom (e : Emulator) (owed : Rat) (told : List Notice) : Reply Rat :=
  if 1 ≤ owed ∧ e.isStopped = false then
    let r := e.attempt
    let told := r.notices.reverse ++ told
    match r.value with
    | .finished => payFrom r.emulator (owed - 1) told
    | _ => { emulator := r.emulator, notices := told.reverse, value := fraction owed }
  else { emulator := e, notices := told.reverse, value := owed }
termination_by owed.floor.toNat
decreasing_by
  have hone : 1 ≤ owed.floor := Rat.le_floor_iff.2 (by simp_all)
  rw [Rat.floor_sub_one]
  omega

/-- Executes the whole number of instructions in an owed amount and gives the rest. -/
def runOwed (e : Emulator) (owed : Rat) : Reply Rat :=
  payFrom e owed []

/-- The number of instructions that stands for an amount without bound. -/
def unboundedBatch : Nat := 0x10000000000000000

/-- Executes the whole number of instructions in an owed amount and gives the rest; an amount
of which nothing was used is given back as it is. An amount without bound ends only with a key
wait or a failure and leaves no number. -/
def executeCycles (e : Emulator) (owed : Float) : Reply Float :=
  match (Binary64.ofFloat owed).value? with
  | some amount =>
    let r := e.runOwed amount
    { emulator := r.emulator
      notices := r.notices
      value := if r.value = amount then owed else Binary64.toFloat r.value }
  | none =>
    if e.isStopped || !(1 ≤ owed) then { emulator := e, value := owed }
    else
      let r := e.runBatch unboundedBatch
      { emulator := r.emulator, notices := r.notices, value := owed - owed }

/-! ## Running without a limit -/

/-- How a run without a limit ended. -/
inductive Settled where
  | stopped
  /-- The program waits for a key, or the machine is held. -/
  | waiting
  /-- The run was broken off. -/
  | brokenOff
deriving DecidableEq

/-- How many instructions the driver executes for each tick of the clock. -/
def stepsPerTick : Nat := 8

/-- A tick of the clock if it runs. -/
def tickIfClocked (e : Emulator) : Reply Unit :=
  if e.clock.any (·.running) then e.tick else { emulator := e, value := () }

/-- Lets a started driver go on for up to `rounds` ticks, with the notices told before in
reverse. -/
def settleFrom : Nat → Emulator → List Notice → Reply Settled
  | 0, e, told => { emulator := e, notices := told.reverse, value := .brokenOff }
  | rounds + 1, e, told =>
    if e.isStopped then { emulator := e, notices := told.reverse, value := .stopped }
    else if !e.isRunning || e.isPaused then
      { emulator := e, notices := told.reverse, value := .waiting }
    else
      let r := e.runBatch stepsPerTick
      let told := r.notices.reverse ++ told
      match r.value with
      | .failed =>
        { emulator := r.emulator
          notices := told.reverse ++ [driverStopped]
          value := .stopped }
      | .waiting => { emulator := r.emulator, notices := told.reverse, value := .waiting }
      | .finished =>
        let t := r.emulator.tickIfClocked
        settleFrom rounds t.emulator (t.notices.reverse ++ told)

/-- Lets a started driver go on until the program waits for a key or fails, for `rounds`
ticks at most. -/
def settle (e : Emulator) (rounds : Nat) : Reply Settled :=
  settleFrom rounds e []

end Emulator

end Chip8
