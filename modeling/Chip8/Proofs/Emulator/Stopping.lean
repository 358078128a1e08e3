import Chip8.Proofs.Emulator.Request
import Chip8.Proofs.Machine.Counter

/-!
# A stopped machine stays stopped

A machine is stopped by its host or by a failed instruction. Three things tell what runs then, the
request to stop, the driver and the clock, and the requests change them in different ways: nothing
runs while the request is there (`Halted`), and a stopped clock stands still whatever the speed is
(`Silent`).

**Theorem (`stopped_until_reset`).** This holds after any requests without a reset and without a
program. The first reset or program that follows takes the request back and lets the clock run.
-/

namespace Chip8

/-- The request puts the machine at the start of a program. -/
def Request.restarts : Request → Bool
  | .reset => true
  | .loadProgram _ => true
  | .loadProgramFile _ _ => true
  | _ => false

namespace Emulator

/-- The emulator does nothing that it is asked to execute. -/
structure Halted (e : Emulator) : Prop where
  stopped : e.isStopped = true
  idle : e.isRunning = false
  start : e.start = { emulator := e, notices := [], value := .error {} }
  batch : ∀ owed, e.executeCycles owed = { emulator := e, notices := [], value := owed }
  /-- A single step still executes an instruction, but it is not counted. -/
  step : e.step.emulator.machine.cycles = e.machine.cycles

/-- No clock runs. -/
def Silent (e : Emulator) : Prop :=
  ∀ c ∈ e.clock, c.running = false

/-- The second emulator is the first one at a start: it can be started, and its clock runs. -/
structure Restarted (e e' : Emulator) : Prop where
  stopped : e'.isStopped = false
  start : e'.start.value = .ok () ∧ e'.start.emulator.isRunning = true
  clock : e'.clock.isSome = e.clock.isSome ∧ ∀ c ∈ e'.clock, c.running = true

/-! ## What instructions and ticks leave alone -/

theorem stable_isStopped : Stable fun e => e.isStopped = true where
  step h := (isStopped_step _).trans h
  tick h := h
  stop _ := rfl

theorem stable_isPaused (paused : Bool) : Stable fun e => e.isPaused = paused where
  step {e} h := (congrArg Control.paused e.machine.step_keypad_control.2).trans h
  tick h := h
  stop h := h

theorem stable_clock (clock : Option Clock) : Stable fun e => e.clock = clock where
  step h := h
  tick h := h
  stop h := h

/-! ## A stopped emulator -/

theorem step_cycles_of_stopped {m : Machine} (h : m.control.stopped = true) :
    m.step.machine.cycles = m.cycles := by
  have hnot : ¬m.Completes .step := fun ⟨_, _, hfree, _⟩ => Bool.false_ne_true (hfree.symm.trans h)
  exact Machine.react_cycles_of_not_completes (e := .step) nofun hnot

theorem start_of_isStopped {e : Emulator} (h : e.isStopped = true) :
    e.start = { emulator := e, notices := [], value := .error {} } := by
  rw [start, if_pos h]

theorem halted_of_isStopped {e : Emulator} (h : e.isStopped = true) : e.Halted where
  stopped := h
  idle := by rw [isRunning, h, Bool.not_true, Bool.and_false]
  start := start_of_isStopped h
  batch := executeCycles_of_isStopped h
  step := step_cycles_of_stopped h

/-! ## Requests to a stopped emulator -/

theorem loadState_control (e : Emulator) (s : SaveState) :
    (e.loadState s).emulator.machine.control = e.machine.control := by
  have hrestores := e.machine.restoring_spec s
  have hmachine : (e.loadState s).emulator.machine = (e.machine.restoring s).machine := rfl
  rw [hmachine]
  generalize e.machine.restoring s = r at hrestores
  cases hrestores with
  | memoryRefused => rfl
  | screenRefused => rfl
  | installed _ _ _ _ hcontrol => exact hcontrol

theorem loadStateFile_control (e : Emulator) (path : String)
    (contents : Except FileError String) :
    (e.loadStateFile path contents).emulator.machine.control = e.machine.control :=
  e.loadStateFile_preserves path contents rfl e.loadState_control

theorem keyUp_control (e : Emulator) (key : HostKey) :
    (e.keyUp key).machine.control = e.machine.control := by
  rw [keyUp]
  split <;> rfl

theorem setSpeed_machine (e : Emulator) (factor : Float) :
    (e.setSpeed factor).emulator.machine = e.machine := by
  rw [setSpeed]
  split <;> rfl

/-- Only what puts the machine at the start of a program takes back the request to stop. -/
theorem serve_isStopped {e : Emulator} (h : e.isStopped = true) {r : Request}
    (hr : r.restarts = false) : (e.serve r).isStopped = true := by
  cases r with
  | start =>
    rw [serve, start_of_isStopped h]
    exact h
  | stop => rfl
  | step =>
    rw [serve]
    exact stable_isStopped.step h
  | executeCycles owed =>
    rw [serve]
    exact stable_isStopped.executeCycles h owed
  | drive owed =>
    rw [serve]
    exact stable_isStopped.driven h owed
  | setSpeed factor =>
    rw [serve, isStopped, setSpeed_machine]
    exact h
  | keyUp key =>
    rw [serve, isStopped, keyUp_control]
    exact h
  | loadState s =>
    rw [serve, isStopped, loadState_control]
    exact h
  | loadStateFile path contents =>
    rw [serve, isStopped, loadStateFile_control]
    exact h
  | reset => cases hr
  | loadProgram source => cases hr
  | loadProgramFile path opened => cases hr
  | _ => exact h

theorem Silent.of_clock {e e' : Emulator} (h : e.Silent) (hclock : e'.clock = e.clock) :
    e'.Silent := by
  rw [Silent, hclock]
  exact h

theorem Silent.map {e e' : Emulator} (h : e.Silent) {f : Clock → Clock}
    (hclock : e'.clock = e.clock.map f) (hf : ∀ c, c.running = false → (f c).running = false) :
    e'.Silent := by
  intro c hc
  rw [hclock] at hc
  obtain ⟨c', hc', rfl⟩ := Option.mem_map.1 hc
  exact hf c' (h c' hc')

theorem silent_stop (e : Emulator) : e.stop.emulator.Silent := by
  intro c hc
  obtain ⟨c', -, rfl⟩ := Option.mem_map.1 hc
  rfl

theorem Silent.setSpeed {e : Emulator} (h : e.Silent) (factor : Float) :
    (e.setSpeed factor).emulator.Silent := by
  rw [Emulator.setSpeed]
  split
  · exact h
  · refine h.map rfl fun c hc => ?_
    rw [atSpeed, hc]
    exact hc

/-- The clock runs again only with the program. -/
theorem Silent.serve {e : Emulator} (h : e.Silent) {r : Request} (hr : r.restarts = false) :
    (e.serve r).Silent := by
  cases r with
  | start =>
    rw [Emulator.serve]
    exact e.start_preserves h h
  | stop => exact h.map rfl fun _ _ => rfl
  | executeCycles owed => exact h.of_clock ((stable_clock e.clock).executeCycles rfl owed)
  | drive owed => exact h.of_clock ((stable_clock e.clock).driven rfl owed)
  | setSpeed factor => exact h.setSpeed factor
  | keyUp key =>
    rw [Emulator.serve, keyUp]
    split <;> exact h
  | loadStateFile path contents =>
    rw [Emulator.serve]
    exact e.loadStateFile_preserves path contents h fun _ => h
  | reset => cases hr
  | loadProgram source => cases hr
  | loadProgramFile path opened => cases hr
  | _ => exact h

theorem after_isStopped {e : Emulator} (h : e.isStopped = true) {requests : List Request}
    (hnone : ∀ r ∈ requests, r.restarts = false) : (e.after requests).isStopped = true := by
  induction requests generalizing e with
  | nil => exact h
  | cons r requests ih =>
    obtain ⟨hr, hrest⟩ := List.forall_mem_cons.1 hnone
    exact ih (serve_isStopped h hr) hrest

theorem Silent.after {e : Emulator} (h : e.Silent) {requests : List Request}
    (hnone : ∀ r ∈ requests, r.restarts = false) : (e.after requests).Silent := by
  induction requests generalizing e with
  | nil => exact h
  | cons r requests ih =>
    obtain ⟨hr, hrest⟩ := List.forall_mem_cons.1 hnone
    exact ih (h.serve hr) hrest

/-! ## Starting over -/

theorem running_restarted (speed : Speed) (c : Clock) : (restarted speed c).running = true := by
  rw [restarted]
  split
  · next h => exact h
  · rfl

theorem reset_frame (e : Emulator) :
    e.reset.emulator.clock = e.clock.map (restarted e.speed) ∧
      e.reset.emulator.machine.control = { e.machine.control with stopped := false } ∧
      e.reset.emulator.driving = false :=
  ⟨rfl, rfl, rfl⟩

theorem unload_frame (e : Emulator) :
    e.unload.emulator.clock = e.clock.map (restarted e.speed) ∧
      e.unload.emulator.machine.control = { e.machine.control with stopped := false } ∧
      e.unload.emulator.driving = false := by
  obtain ⟨hmachine, hclock, hspeed, -⟩ := e.halt.emulator.withMachine_frame .cleared
  obtain ⟨hclock', hcontrol', hdriving'⟩ :=
    (e.halt.emulator.withMachine .cleared).reset_frame
  rw [hclock, hspeed] at hclock'
  rw [hmachine, (Machine.keeps_cleared _).control] at hcontrol'
  rw [unload_emulator]
  exact ⟨hclock', hcontrol', hdriving'⟩

theorem loadProgram_frame (e : Emulator) (source : Source) :
    (e.loadProgram source).emulator.clock = e.clock.map (restarted e.speed) ∧
      (e.loadProgram source).emulator.machine.control =
        { e.machine.control with stopped := false } ∧
      (e.loadProgram source).emulator.driving = false := by
  refine e.loadProgram_preserves source e.unload_frame fun program => ?_
  obtain ⟨hmachine, hclock, -, hdriving⟩ := e.unload.emulator.withMachine_frame (·.loaded program)
  rw [hmachine, hclock, hdriving, (Machine.keeps_loaded _ program).control]
  exact e.unload_frame

theorem restarted_of_clock {e e' : Emulator} (hstopped : e'.isStopped = false)
    (hdriving : e'.driving = false) {speed : Speed}
    (hclock : e'.clock = e.clock.map (restarted speed)) : e.Restarted e' where
  stopped := hstopped
  start := by
    have hnot : ¬e'.isStopped = true := by rw [hstopped]; decide
    have hidle : ¬e'.driving = true := by rw [hdriving]; decide
    rw [start, if_neg hnot, if_neg hidle]
    refine ⟨rfl, ?_⟩
    rw [isRunning]
    exact Bool.and_eq_true_iff.2 ⟨rfl, congrArg Bool.not hstopped⟩
  clock := by
    rw [hclock]
    refine ⟨Option.isSome_map, fun c hc => ?_⟩
    obtain ⟨c', -, rfl⟩ := Option.mem_map.1 hc
    exact running_restarted speed c'

theorem restarted_reset (e : Emulator) : e.Restarted e.reset.emulator :=
  restarted_of_clock rfl rfl rfl

/-- A program restarts the emulator even if it cannot be read. -/
theorem restarted_loadProgram (e : Emulator) (source : Source) :
    e.Restarted (e.loadProgram source).emulator := by
  obtain ⟨hclock, hcontrol, hdriving⟩ := e.loadProgram_frame source
  exact restarted_of_clock (congrArg Control.stopped hcontrol) hdriving hclock

theorem loadProgram_isPaused (e : Emulator) (source : Source) :
    (e.loadProgram source).emulator.isPaused = e.isPaused := by
  rw [isPaused, (e.loadProgram_frame source).2.1]
  rfl

/-- Only the two requests for it change whether the machine is held. -/
theorem serve_isPaused (e : Emulator) {r : Request} (hpause : r ≠ .pause)
    (hresume : r ≠ .resume) : (e.serve r).isPaused = e.isPaused := by
  cases r with
  | pause => exact absurd rfl hpause
  | resume => exact absurd rfl hresume
  | start =>
    rw [serve]
    exact e.start_preserves rfl rfl
  | step => exact (stable_isPaused e.isPaused).step rfl
  | executeCycles owed => exact (stable_isPaused e.isPaused).executeCycles rfl owed
  | drive owed => exact (stable_isPaused e.isPaused).driven rfl owed
  | setSpeed factor => exact congrArg (·.control.paused) (e.setSpeed_machine factor)
  | keyUp key => exact congrArg Control.paused (e.keyUp_control key)
  | loadState s => exact congrArg Control.paused (e.loadState_control s)
  | loadStateFile path contents =>
    exact congrArg Control.paused (e.loadStateFile_control path contents)
  | loadProgram source => exact e.loadProgram_isPaused source
  | loadProgramFile path opened =>
    rw [serve]
    exact e.loadProgramFile_preserves path opened rfl e.loadProgram_isPaused
  | _ => rfl

/-! ## The law of stopping -/

/-- **A stopped machine stays stopped until a reset.** After any requests without a reset and
without a program, a stopped emulator does nothing that it is asked to execute and its clock, once
stopped, stands still. The first reset or program after that makes it startable and lets its clock
run. Nothing but pausing and resuming changes whether the machine is held. -/
theorem stopped_until_reset {e : Emulator} (hstopped : e.isStopped = true)
    {requests : List Request} (hnone : ∀ r ∈ requests, r.restarts = false) :
    (e.after requests).Halted ∧
      (e.Silent → (e.after requests).Silent) ∧
      (e.after requests).Restarted (e.after requests).reset.emulator ∧
      (∀ source,
        (e.after requests).Restarted ((e.after requests).loadProgram source).emulator) ∧
      (∀ e' : Emulator, e'.stop.emulator.isStopped = true ∧ e'.stop.emulator.Silent) ∧
      ∀ (e' : Emulator) (r : Request), r ≠ .pause → r ≠ .resume →
        (e'.serve r).isPaused = e'.isPaused :=
  ⟨halted_of_isStopped (after_isStopped hstopped hnone), fun hsilent => hsilent.after hnone,
    restarted_reset _, restarted_loadProgram _, fun e' => ⟨rfl, silent_stop e'⟩, serve_isPaused⟩

/-- An emulator with a clock, stopped by its host. -/
def stoppedByHost : Emulator :=
  (Emulator.stop
    { machine := .fresh (.ofSeed 0 0 0 0)
      speed := ⟨1, Options.isSpeed_default⟩
      clock := some (.start (.ofMilliseconds 17))
      options := {} }).emulator

/-- What a host might try. -/
def attempts : List Request :=
  [.start, .setSpeed 2, .resume, .step, .executeCycles 3.5, .tick, .stop]

theorem stopped_until_reset_stoppedByHost :
    stoppedByHost.isStopped = true ∧ stoppedByHost.Silent ∧
      (∀ r ∈ attempts, r.restarts = false) ∧
      (stoppedByHost.after attempts).Halted ∧ (stoppedByHost.after attempts).Silent ∧
      (stoppedByHost.after attempts).Restarted (stoppedByHost.after attempts).reset.emulator := by
  have hnone : ∀ r ∈ attempts, r.restarts = false := by simp [attempts, Request.restarts]
  obtain ⟨hhalted, hsilent, hrestarted, -, hstop, -⟩ :=
    stopped_until_reset (e := stoppedByHost) rfl hnone
  have hquiet : stoppedByHost.Silent := (hstop _).2
  exact ⟨rfl, hquiet, hnone, hhalted, hsilent hquiet, hrestarted⟩

end Emulator

end Chip8
