import Chip8.Emulator.File
import Chip8.Proofs.Emulator.Batch
import Chip8.Proofs.Machine.Reachable

/-!
# What is asked of an emulator

A host asks one thing after the other (`Request`), and each is served by the function of the
emulator that it is for (`serve`). Two requests execute any number of instructions: a batch that
the host asks for and a round of the driver.

**Theorem (`Stable.executeCycles`).** What a single step, a tick and the request to stop preserve
is preserved by a batch, whatever it executes. So a property of an emulator that all requests
should keep is looked at with single steps only.
-/

namespace Chip8

/-- Something that a host asks of an emulator. -/
inductive Request where
  | start
  | pause
  | resume
  | stop
  /-- One instruction is executed. -/
  | step
  | executeCycles (owed : Float)
  /-- The driver goes through a round with what it owes. -/
  | drive (owed : Float)
  /-- The clock ticks. -/
  | tick
  | setSpeed (factor : Float)
  | setKeys (keys : KeyConfig)
  | keyDown (key : HostKey)
  | keyUp (key : HostKey)
  /-- A snapshot is taken. -/
  | saveState
  | loadState (s : SaveState)
  /-- A state is read from a file, given what reading it gave. -/
  | loadStateFile (path : String) (contents : Except FileError String)
  | reset
  | loadProgram (source : Source)
  /-- A program is read from a file, given what opening it gave. -/
  | loadProgramFile (path : String) (opened : Except FileError Source)

namespace Emulator

/-- The emulator after a round of the driver, which executes what it owes unless it has ended or
the machine is held. -/
def driven (e : Emulator) (owed : Float) : Emulator :=
  if e.isRunning && !e.isPaused then (e.executeCycles owed).emulator else e

/-- The emulator after a request. -/
def serve (e : Emulator) : Request → Emulator
  | .start => e.start.emulator
  | .pause => e.pause
  | .resume => e.resume
  | .stop => e.stop.emulator
  | .step => e.step.emulator
  | .executeCycles owed => (e.executeCycles owed).emulator
  | .drive owed => e.driven owed
  | .tick => e.tick.emulator
  | .setSpeed factor => (e.setSpeed factor).emulator
  | .setKeys keys => { e with keys := keys }
  | .keyDown key => e.keyDown key
  | .keyUp key => e.keyUp key
  | .saveState => e
  | .loadState s => (e.loadState s).emulator
  | .loadStateFile path contents => (e.loadStateFile path contents).emulator
  | .reset => e.reset.emulator
  | .loadProgram source => (e.loadProgram source).emulator
  | .loadProgramFile path opened => (e.loadProgramFile path opened).emulator

def after (e : Emulator) : List Request → Emulator
  | [] => e
  | r :: requests => (e.serve r).after requests

theorem withMachine_frame (e : Emulator) (f : Machine → Machine) :
    (e.withMachine f).machine = f e.machine ∧ (e.withMachine f).clock = e.clock ∧
      (e.withMachine f).speed = e.speed ∧ (e.withMachine f).driving = e.driving :=
  ⟨rfl, rfl, rfl, rfl⟩

/-- Unloading is stopping, clearing the program area and starting over. -/
theorem unload_emulator (e : Emulator) :
    e.unload.emulator = (e.halt.emulator.withMachine .cleared).reset.emulator :=
  rfl

variable {P : Emulator → Prop}

/-! ## Requests that are served in several ways -/

@[elab_as_elim]
theorem start_preserves (e : Emulator) (same : P e) (started : P { e with driving := true }) :
    P e.start.emulator := by
  rw [start]
  split
  · exact same
  · split
    · exact same
    · exact started

/-- A state file is like the state that it holds, or like no request. -/
@[elab_as_elim]
theorem loadStateFile_preserves (e : Emulator) (path : String)
    (contents : Except FileError String) (same : P e)
    (loaded : ∀ s, P (e.loadState s).emulator) : P (e.loadStateFile path contents).emulator := by
  cases contents with
  | error error => exact same
  | ok text =>
    simp only [loadStateFile, stateFrom]
    cases SaveState.ofText text with
    | error error => exact same
    | ok s => exact loaded s

/-- Loading is unloading and, if the program can be read, placing it. -/
@[elab_as_elim]
theorem loadProgram_preserves (e : Emulator) (source : Source) (unread : P e.unload.emulator)
    (placed : ∀ program, P (e.unload.emulator.withMachine (·.loaded program))) :
    P (e.loadProgram source).emulator := by
  cases source with
  | error error => exact unread
  | ok bytes => exact placed bytes.data

/-- A program file is like the program that it holds, or like no request. -/
@[elab_as_elim]
theorem loadProgramFile_preserves (e : Emulator) (path : String)
    (opened : Except FileError Source) (same : P e)
    (loaded : ∀ source, P (e.loadProgram source).emulator) :
    P (e.loadProgramFile path opened).emulator := by
  cases opened with
  | error error => exact same
  | ok source => exact loaded source

/-! ## What executing instructions preserves -/

/-- Executing instructions, ticking and stopping preserve the property. -/
structure Stable (P : Emulator → Prop) : Prop where
  step : ∀ {e}, P e → P e.step.emulator
  tick : ∀ {e}, P e → P e.tick.emulator
  stop : ∀ {e}, P e → P (e.withMachine .stop)

theorem Stable.attempt (h : Stable P) {e : Emulator} (he : P e) : P e.attempt.emulator := by
  cases hstep : e.step.value with
  | error error =>
    rw [attempt_of_error hstep]
    exact h.stop (h.step he)
  | ok status =>
    cases status with
    | executed =>
      rw [attempt_of_executed hstep]
      exact h.step he
    | waiting =>
      rw [attempt_of_waiting hstep]
      exact h.step he

theorem Stable.runFrom (h : Stable P) {e : Emulator} (he : P e) (n : Nat) (told : List Notice) :
    P (runFrom n e told).emulator := by
  induction n generalizing e told with
  | zero => exact he
  | succ n ih =>
    rw [Emulator.runFrom]
    split
    · exact ih (h.attempt he) _
    · exact h.attempt he

theorem Stable.runBatch (h : Stable P) {e : Emulator} (he : P e) (n : Nat) :
    P (e.runBatch n).emulator :=
  h.runFrom he n []

theorem Stable.payFrom (h : Stable P) {e : Emulator} (he : P e) (owed : Rat)
    (told : List Notice) : P (e.payFrom owed told).emulator := by
  fun_induction Emulator.payFrom e owed told with
  | case1 e owed told _ r told' _ ih => exact ih (h.attempt he)
  | case2 e owed told _ r told' _ => exact h.attempt he
  | case3 e owed told _ => exact he

/-- **A batch** preserves what single steps preserve. -/
theorem Stable.executeCycles (h : Stable P) {e : Emulator} (he : P e) (owed : Float) :
    P (e.executeCycles owed).emulator := by
  rw [Emulator.executeCycles]
  split
  · exact h.payFrom he _ []
  · split
    · exact he
    · exact h.runBatch he unboundedBatch

theorem Stable.driven (h : Stable P) {e : Emulator} (he : P e) (owed : Float) :
    P (e.driven owed) := by
  rw [Emulator.driven]
  split
  · exact h.executeCycles he owed
  · exact he

end Emulator

end Chip8
