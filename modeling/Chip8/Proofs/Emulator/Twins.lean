import Chip8.Proofs.Emulator.WellFormed

/-!
# Emulators with the same machine

What a machine does depends neither on the speed nor on the clock, the options or the log of the
emulator that has it. Only a host key can tell two emulators with the same machine apart, since
which key it stands for is a matter of the bindings (`UsesBindings`).

**Theorem (`Twins.operated`).** Twins stay twins under any operations, if they have the same
bindings or no host key is among them.
-/

namespace Chip8

/-- The request goes through the key bindings. -/
def Request.UsesBindings : Request → Prop
  | .keyDown _ | .keyUp _ => True
  | _ => False

/-- The operation goes through the key bindings. -/
def Operation.UsesBindings : Operation → Prop
  | .request r => r.UsesBindings
  | .access _ => False

def Request.bindings : Request → KeyConfig → KeyConfig
  | .setKeys keys, _ => keys
  | _, keys => keys

namespace Emulator

/-- The emulators have the same machine, and both have a driver or none. -/
structure Twins (e e' : Emulator) : Prop where
  machine : e'.machine = e.machine
  driving : e'.driving = e.driving

end Emulator

/-- The replies leave twins and have the same value. -/
structure Reply.Agrees {α : Type} (r r' : Reply α) : Prop where
  emulator : r.emulator.Twins r'.emulator
  value : r'.value = r.value

namespace Emulator

variable {e e' : Emulator}

theorem Twins.withMachine (h : e.Twins e') (f : Machine → Machine) :
    (e.withMachine f).Twins (e'.withMachine f) :=
  ⟨congrArg f h.machine, h.driving⟩

theorem Twins.isStopped (h : e.Twins e') : e'.isStopped = e.isStopped :=
  congrArg (·.control.stopped) h.machine

theorem Twins.isRunning (h : e.Twins e') : e'.isRunning = e.isRunning := by
  rw [Emulator.isRunning, Emulator.isRunning, h.driving, h.isStopped]

theorem Twins.isPaused (h : e.Twins e') : e'.isPaused = e.isPaused :=
  congrArg (·.control.paused) h.machine

/-! ## Executing instructions -/

theorem Twins.step (h : e.Twins e') : e.step.Agrees e'.step where
  emulator := ⟨congrArg (·.step.machine) h.machine, h.driving⟩
  value := congrArg (·.step.result) h.machine

theorem Twins.attempt (h : e.Twins e') : e.attempt.Agrees e'.attempt := by
  obtain ⟨htwins, hvalue⟩ := h.step
  cases hstep : e.step.value with
  | error error =>
    rw [attempt_of_error hstep, attempt_of_error (hvalue.trans hstep)]
    exact ⟨htwins.withMachine .stop, rfl⟩
  | ok status =>
    cases status with
    | executed =>
      rw [attempt_of_executed hstep, attempt_of_executed (hvalue.trans hstep)]
      exact ⟨htwins, rfl⟩
    | waiting =>
      rw [attempt_of_waiting hstep, attempt_of_waiting (hvalue.trans hstep)]
      exact ⟨htwins, rfl⟩

theorem Twins.runFrom (h : e.Twins e') (n : Nat) (told told' : List Notice) :
    (runFrom n e told).Agrees (runFrom n e' told') := by
  induction n generalizing e e' told told' with
  | zero => exact ⟨h, rfl⟩
  | succ n ih =>
    obtain ⟨htwins, hvalue⟩ := h.attempt
    rw [Emulator.runFrom, Emulator.runFrom]
    cases hended : e.attempt.value with
    | finished =>
      rw [hended] at hvalue
      simp only [hvalue]
      exact ih htwins _ _
    | waiting | failed =>
      rw [hended] at hvalue
      simp only [hvalue]
      exact ⟨htwins, rfl⟩

theorem Twins.payFrom (h : e.Twins e') (owed : Rat) (told told' : List Notice) :
    (e.payFrom owed told).Agrees (e'.payFrom owed told') := by
  fun_induction Emulator.payFrom e owed told generalizing e' told' with
  | case1 e owed told hpays r told₁ hended =>
    rename_i ih
    obtain ⟨htwins, hvalue⟩ := h.attempt
    rw [payFrom_of_finished hpays.1 (h.isStopped.trans hpays.2) (hvalue.trans hended)]
    exact ih htwins _
  | case2 e owed told hpays r told₁ =>
    rename_i hended
    obtain ⟨htwins, hvalue⟩ := h.attempt
    have hended' : e'.attempt.value ≠ .finished := fun hfinished =>
      hended (hvalue.symm.trans hfinished)
    rw [payFrom_of_ended hpays.1 (h.isStopped.trans hpays.2) hended']
    exact ⟨htwins, rfl⟩
  | case3 e owed told hidle =>
    rw [← h.isStopped] at hidle
    rw [payFrom_of_idle hidle]
    exact ⟨h, rfl⟩

theorem Twins.executeCycles (h : e.Twins e') (owed : Float) :
    (e.executeCycles owed).Agrees (e'.executeCycles owed) := by
  rw [Emulator.executeCycles, Emulator.executeCycles, h.isStopped]
  split
  · next amount _ =>
    obtain ⟨htwins, hvalue⟩ := h.payFrom amount [] []
    exact ⟨htwins,
      congrArg (fun rest => if rest = amount then owed else Binary64.toFloat rest) hvalue⟩
  · split
    · exact ⟨h, rfl⟩
    · exact ⟨(h.runFrom unboundedBatch [] []).emulator, rfl⟩

theorem Twins.driven (h : e.Twins e') (owed : Float) : (e.driven owed).Twins (e'.driven owed) := by
  rw [Emulator.driven, Emulator.driven, h.isRunning, h.isPaused]
  split
  · exact (h.executeCycles owed).emulator
  · exact h

/-! ## Everything else that is asked -/

theorem Twins.start (h : e.Twins e') : e.start.emulator.Twins e'.start.emulator := by
  rw [Emulator.start, Emulator.start, h.isStopped, h.driving]
  split
  · exact h
  · split
    · exact h
    · exact ⟨h.machine, rfl⟩

theorem Twins.setSpeed (h : e.Twins e') (factor : Float) :
    (e.setSpeed factor).emulator.Twins (e'.setSpeed factor).emulator := by
  rw [Emulator.setSpeed, Emulator.setSpeed]
  split
  · exact h
  · exact ⟨h.machine, h.driving⟩

theorem Twins.keyDown (h : e.Twins e') (hkeys : e'.keys = e.keys) (key : HostKey) :
    (e.keyDown key).Twins (e'.keyDown key) := by
  rw [Emulator.keyDown, Emulator.keyDown, hkeys]
  exact h.withMachine _

theorem Twins.keyUp (h : e.Twins e') (hkeys : e'.keys = e.keys) (key : HostKey) :
    (e.keyUp key).Twins (e'.keyUp key) := by
  rw [Emulator.keyUp, Emulator.keyUp, hkeys]
  split
  · exact h.withMachine _
  · exact h

theorem Twins.loadState (h : e.Twins e') (s : SaveState) :
    (e.loadState s).emulator.Twins (e'.loadState s).emulator :=
  ⟨congrArg (fun m => (m.restoring s).machine) h.machine, h.driving⟩

theorem Twins.loadStateFile (h : e.Twins e') (path : String)
    (contents : Except FileError String) :
    (e.loadStateFile path contents).emulator.Twins (e'.loadStateFile path contents).emulator := by
  cases contents with
  | error error => exact h
  | ok text =>
    simp only [Emulator.loadStateFile, stateFrom]
    cases SaveState.ofText text with
    | error error => exact h
    | ok s => exact h.loadState s

theorem Twins.reset (h : e.Twins e') : e.reset.emulator.Twins e'.reset.emulator :=
  ⟨congrArg (fun m => m.stop.reset.clearStop) h.machine, rfl⟩

theorem Twins.unload (h : e.Twins e') : e.unload.emulator.Twins e'.unload.emulator :=
  ⟨congrArg (fun m => m.stop.cleared.stop.reset.clearStop) h.machine, rfl⟩

theorem Twins.loadProgram (h : e.Twins e') (source : Source) :
    (e.loadProgram source).emulator.Twins (e'.loadProgram source).emulator := by
  cases source with
  | error error => exact h.unload
  | ok bytes => exact h.unload.withMachine (·.loaded bytes.data)

/-- **Twins stay twins** whatever is asked of them. -/
theorem Twins.serve (h : e.Twins e') (r : Request) (hkeys : r.UsesBindings → e'.keys = e.keys) :
    (e.serve r).Twins (e'.serve r) := by
  cases r with
  | start => exact h.start
  | pause | resume => exact h.withMachine _
  | stop => exact ⟨congrArg Machine.stop h.machine, rfl⟩
  | step => exact h.step.emulator
  | executeCycles owed => exact (h.executeCycles owed).emulator
  | drive owed => exact h.driven owed
  | tick => exact h.withMachine (·.tick.1)
  | setSpeed factor => exact h.setSpeed factor
  | setKeys keys => exact ⟨h.machine, h.driving⟩
  | keyDown key => exact h.keyDown (hkeys trivial) key
  | keyUp key => exact h.keyUp (hkeys trivial) key
  | saveState => exact h
  | loadState s => exact h.loadState s
  | loadStateFile path contents => exact h.loadStateFile path contents
  | reset => exact h.reset
  | loadProgram source => exact h.loadProgram source
  | loadProgramFile path opened =>
    cases opened with
    | error error => exact h
    | ok source => exact h.loadProgram source

/-! ## Bindings -/

theorem stable_keys (keys : KeyConfig) : Stable fun e => e.keys = keys where
  step h := h
  tick h := h
  stop h := h

theorem withMachine_setup (e : Emulator) (f : Machine → Machine) :
    (e.withMachine f).speed = e.speed ∧ (e.withMachine f).keys = e.keys ∧
      (e.withMachine f).options = e.options :=
  ⟨rfl, rfl, rfl⟩

theorem reset_setup (e : Emulator) :
    e.reset.emulator.speed = e.speed ∧ e.reset.emulator.keys = e.keys ∧
      e.reset.emulator.options = e.options :=
  ⟨rfl, rfl, rfl⟩

theorem unload_setup (e : Emulator) :
    e.unload.emulator.speed = e.speed ∧ e.unload.emulator.keys = e.keys ∧
      e.unload.emulator.options = e.options := by
  have hcleared := e.halt.emulator.withMachine_setup .cleared
  have hreset := (e.halt.emulator.withMachine .cleared).reset_setup
  rw [hcleared.1, hcleared.2.1, hcleared.2.2] at hreset
  exact hreset

theorem loadProgram_setup (e : Emulator) (source : Source) :
    (e.loadProgram source).emulator.speed = e.speed ∧
      (e.loadProgram source).emulator.keys = e.keys ∧
      (e.loadProgram source).emulator.options = e.options := by
  refine e.loadProgram_preserves source e.unload_setup fun program => ?_
  have hloaded := e.unload.emulator.withMachine_setup (·.loaded program)
  rw [hloaded.1, hloaded.2.1, hloaded.2.2]
  exact e.unload_setup

/-- Only the request to set the bindings changes them. -/
theorem serve_keys (e : Emulator) (r : Request) : (e.serve r).keys = r.bindings e.keys := by
  cases r with
  | start =>
    rw [serve]
    exact e.start_preserves rfl rfl
  | executeCycles owed => exact (stable_keys e.keys).executeCycles rfl owed
  | drive owed => exact (stable_keys e.keys).driven rfl owed
  | setSpeed factor =>
    rw [serve, setSpeed]
    split <;> rfl
  | keyUp key =>
    rw [serve, keyUp]
    split <;> rfl
  | loadStateFile path contents =>
    rw [serve]
    exact e.loadStateFile_preserves path contents rfl fun s => rfl
  | loadProgram source => exact (e.loadProgram_setup source).2.1
  | loadProgramFile path opened =>
    rw [serve]
    exact e.loadProgramFile_preserves path opened rfl fun source =>
      (e.loadProgram_setup source).2.1
  | _ => rfl

theorem operate_keys (h : e'.keys = e.keys) (o : Operation) :
    (e'.operate o).keys = (e.operate o).keys := by
  cases o with
  | request r => rw [operate, operate, serve_keys, serve_keys, h]
  | access a => exact h

theorem Twins.operate (h : e.Twins e') (o : Operation)
    (hkeys : o.UsesBindings → e'.keys = e.keys) : (e.operate o).Twins (e'.operate o) := by
  cases o with
  | request r => exact h.serve r hkeys
  | access a => exact h.withMachine (·.access a)

/-- **Twins stay twins** under any operations. -/
theorem Twins.operated (h : e.Twins e') {operations : List Operation}
    (hkeys : ∀ o ∈ operations, o.UsesBindings → e'.keys = e.keys) :
    (e.operated operations).Twins (e'.operated operations) := by
  induction operations generalizing e e' with
  | nil => exact h
  | cons o operations ih =>
    obtain ⟨ho, hrest⟩ := List.forall_mem_cons.1 hkeys
    refine ih (h.operate o ho) fun o' hmem huses => ?_
    exact operate_keys (hrest o' hmem huses) o

end Emulator

end Chip8
