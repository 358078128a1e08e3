import Chip8.Proofs.Machine.Reachable

/-!
# What a save state brings back

A snapshot holds every part of a machine but the keypad and the requests of the host. Restoring
the snapshot of a sound machine gives that machine in any other (`restore_capture`), whatever the
other was before.

**Theorem (`save_round_trip`).** The snapshot of a reachable machine is written as a text that is
read back as the same snapshot, and a machine that takes it over is written as the same text.

**Theorem (`restored_runs_alike`).** A machine that takes over the snapshot of a reachable machine
with the same keypad and requests cannot be told from it, whatever happens to both.
-/

namespace Chip8

@[simp] theorem CallStack.ofList_toList (stack : CallStack) : ofList stack.toList = stack := by
  simp [ofList, toList]

namespace Machine

/-- **A snapshot is complete.** Restoring the snapshot of a sound machine gives that machine, with
the keypad and the requests of the one that takes it over. -/
theorem restore_capture {m : Machine} (h : m.Sound) (target : Machine) :
    target.restore m.capture =
      .ok { m with keypad := target.keypad, control := target.control } := by
  have hmemory : Memory.ofList? m.capture.memory = some m.memory := m.memory.ofList?_toList
  have hcycles : min m.cycles maxCycles = m.cycles := Nat.min_eq_left h.cycles_le
  have hscreen : target.screen.writeAll 0 m.screen.toList = m.screen :=
    m.screen.writeAll_toList target.screen
  have hgenerator : Generator.ofBytes m.generator.toBytes = m.generator :=
    Generator.ofBytes_toBytes h.generator_nonzero
  have hoverwrite : target.overwrite m.memory m.capture =
      { m with keypad := target.keypad, control := target.control } := by
    simp only [overwrite, capture, setCycles, Timers.setDelay, Timers.loadSound,
      CallStack.ofList_toList, hcycles, hscreen, hgenerator]
  rw [restore, restoring_of_fits hmemory m.length_capture_screen, hoverwrite]
  rfl

theorem writable_capture {m : Machine} (h : m.Sound) : m.capture.Writable where
  memory_length := m.memory.cells.length_toList
  screen_length := m.length_capture_screen
  cycles_le := h.cycles_le
  trace_clean := h.trace_clean

/-- **Saving is faithful.** The text of a reachable machine's snapshot is read as that snapshot,
and any machine takes it over and is then saved as the same text. -/
theorem save_round_trip {m : Machine} (h : m.Reachable) (target : Machine) :
    SaveState.ofText m.capture.text = .ok m.capture ∧
      ∃ restored, target.restore m.capture = .ok restored ∧
        restored.capture.text = m.capture.text :=
  ⟨SaveState.ofText_text (writable_capture h.sound), _, restore_capture h.sound target, rfl⟩

/-- A machine with the program `RND V0, #FF`. -/
def drawing : Machine :=
  (fresh (.ofSeed 0 0 0 0)).loaded #[0xC0, 0xFF]

theorem reachable_drawing : drawing.Reachable := by
  rw [drawing]
  exact .load #[0xC0, 0xFF] (.fresh 0 0 0 0)

theorem save_round_trip_drawing :
    SaveState.ofText (drawing.react .step).machine.capture.text =
        .ok (drawing.react .step).machine.capture ∧
      ∃ restored, drawing.stop.restore (drawing.react .step).machine.capture = .ok restored ∧
        restored.capture.text = (drawing.react .step).machine.capture.text :=
  save_round_trip (reachable_drawing.react .step) drawing.stop

/-- **A restored machine runs identically.** -/
theorem restored_runs_alike {a b : Machine} (h : a.Reachable) (hkeypad : b.keypad = a.keypad)
    (hcontrol : b.control = a.control) :
    ∃ restored, b.restore a.capture = .ok restored ∧
      ∀ events, restored.observe events = a.observe events := by
  refine ⟨a, ?_, fun events => rfl⟩
  rw [restore_capture h.sound, hkeypad, hcontrol]

theorem restored_runs_alike_drawing :
    ∃ restored, drawing.restore (drawing.react .step).machine.capture = .ok restored ∧
      ∀ events, restored.observe events = (drawing.react .step).machine.observe events :=
  restored_runs_alike (reachable_drawing.react .step) (react_step_keypad drawing).symm
    (react_step_control drawing).symm

end Machine

end Chip8
