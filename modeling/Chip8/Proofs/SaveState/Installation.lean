import Chip8.Emulator.File
import Chip8.Proofs.Generator
import Chip8.Proofs.SaveState.RoundTrip
import Chip8.Proofs.Screen

/-!
# Restoring is all or nothing

A snapshot need not come from a machine: its lists can have any length, its counter can be past
the limit, and its generator can be in the state of four zeros. `Restores m s r` says what the
attempt to restore it must leave behind. If the memory or the screen has the wrong size, that is the
machine from before; otherwise it is the snapshot as far as a machine can hold it
(`SaveState.installed`), with the keypad and the requests of the host from before.

**Theorem (`restoring_all_or_nothing`).** Restoring does this for every snapshot and in every
machine, it never refuses a snapshot that was read from a text, and a file that cannot be read or
holds no snapshot changes nothing about an emulator.
-/

namespace Chip8

/-- The snapshot as a machine holds it. -/
def SaveState.installed (s : SaveState) : SaveState :=
  { s with
    cycles := min s.cycles 2147483647
    generator := if s.generator = .replicate 16 0 then Generator.fallback.toBytes else s.generator }

@[simp] theorem Memory.ofList?_toList (memory : Memory) : ofList? memory.toList = some memory := by
  have hlength : memory.toList.length = size := memory.cells.length_toList
  rw [ofList?, dif_pos hlength]
  rfl

theorem Memory.exists_toList {cells : List UInt8} (h : cells.length = size) :
    ∃ memory : Memory, memory.toList = cells :=
  ⟨⟨⟨cells.toArray, h⟩⟩, rfl⟩

@[simp] theorem CallStack.toList_ofList (frames : List UInt16) :
    (ofList frames).toList = frames := by
  simp [ofList, toList]

namespace Machine

/-! ## Writing over a machine -/

theorem length_capture_screen (m : Machine) : m.capture.screen.length = 2048 := by
  simp [capture]

theorem capture_overwrite (m : Machine) {memory : Memory} {s : SaveState}
    (hmemory : memory.toList = s.memory) (hscreen : s.screen.length = 2048) :
    (m.overwrite memory s).capture = s.installed := by
  simp only [overwrite, capture, setCycles, Timers.setDelay, Timers.loadSound,
    SaveState.installed, hmemory, CallStack.toList_ofList, Screen.toList_writeAll _ hscreen,
    Generator.toBytes_ofBytes, maxCycles]

theorem overwrite_keypad_control (m : Machine) (memory : Memory) (s : SaveState) :
    (m.overwrite memory s).keypad = m.keypad ∧ (m.overwrite memory s).control = m.control :=
  ⟨rfl, rfl⟩

/-! ## Restoring -/

/-- What restoring a snapshot in a machine must leave behind. -/
inductive Restores (m : Machine) (s : SaveState) : Restoration → Prop
  /-- The memory is looked at first. -/
  | memoryRefused : s.memory.length ≠ 4095 →
      Restores m s
        { machine := m, signals := [], result := .error (.wrongLength 'm' s.memory.length 4095) }
  | screenRefused : s.memory.length = 4095 → s.screen.length ≠ 2048 →
      Restores m s
        { machine := m, signals := [], result := .error (.wrongLength 's' s.screen.length 2048) }
  | installed {m' : Machine} : s.memory.length = 4095 → s.screen.length = 2048 →
      m'.capture = s.installed → m'.keypad = m.keypad → m'.control = m.control →
      Restores m s { machine := m', signals := [], result := .ok () }

theorem restoring_of_memory {m : Machine} {s : SaveState} (h : s.memory.length ≠ 4095) :
    m.restoring s =
      { machine := m, result := .error (.wrongLength 'm' s.memory.length 4095) } := by
  have hnone : Memory.ofList? s.memory = none := dif_neg h
  rw [restoring, hnone]
  rfl

theorem restoring_of_screen {m : Machine} {s : SaveState} {memory : Memory}
    (hmemory : Memory.ofList? s.memory = some memory) (h : s.screen.length ≠ 2048) :
    m.restoring s =
      { machine := m, result := .error (.wrongLength 's' s.screen.length 2048) } := by
  have hrefused : s.screen.length ≠ Screen.width * Screen.height := h
  simp only [restoring, hmemory, if_pos hrefused]
  rfl

theorem restoring_of_fits {m : Machine} {s : SaveState} {memory : Memory}
    (hmemory : Memory.ofList? s.memory = some memory) (h : s.screen.length = 2048) :
    m.restoring s = { machine := m.overwrite memory s } := by
  have hfits : ¬s.screen.length ≠ Screen.width * Screen.height := not_not_intro h
  simp only [restoring, hmemory, if_neg hfits]

/-- **Restoring** is all or nothing. -/
theorem restoring_spec (m : Machine) (s : SaveState) : m.Restores s (m.restoring s) := by
  by_cases hmemory : s.memory.length = 4095
  · obtain ⟨memory, hcells⟩ := Memory.exists_toList hmemory
    have hsome : Memory.ofList? s.memory = some memory := by rw [← hcells, Memory.ofList?_toList]
    by_cases hscreen : s.screen.length = 2048
    · rw [restoring_of_fits hsome hscreen]
      obtain ⟨hkeypad, hcontrol⟩ := m.overwrite_keypad_control memory s
      exact .installed hmemory hscreen (m.capture_overwrite hcells hscreen) hkeypad hcontrol
    · rw [restoring_of_screen hsome hscreen]
      exact .screenRefused hmemory hscreen
  · rw [restoring_of_memory hmemory]
    exact .memoryRefused hmemory

theorem exists_overwrite_of_restore {m m' : Machine} {s : SaveState} (h : m.restore s = .ok m') :
    ∃ memory, m.overwrite memory s = m' := by
  cases hmemory : Memory.ofList? s.memory with
  | none =>
    simp only [restore, restoring, hmemory] at h
    cases h
  | some memory =>
    by_cases hscreen : s.screen.length = 2048
    · rw [restore, restoring_of_fits hmemory hscreen] at h
      exact ⟨memory, Except.ok.inj h⟩
    · rw [restore, restoring_of_screen hmemory hscreen] at h
      cases h

/-- A snapshot that was read from a text is never refused. -/
theorem restoring_result_of_ofText (m : Machine) {text : String} {s : SaveState}
    (h : SaveState.ofText text = .ok s) : (m.restoring s).result = .ok () := by
  have hwritable := SaveState.writable_of_ofText h
  obtain ⟨memory, hcells⟩ := Memory.exists_toList hwritable.memory_length
  have hsome : Memory.ofList? s.memory = some memory := by rw [← hcells, Memory.ofList?_toList]
  rw [restoring_of_fits hsome hwritable.screen_length]

end Machine

/-! ## Files -/

namespace Emulator

theorem loadStateFile_of_unreadable (e : Emulator) (path : String) (error : FileError) :
    e.loadStateFile path (.error error) =
      { emulator := e
        notices := [loadedStateLine path (.error (.access error))]
        value := .error (.access error) } :=
  rfl

theorem loadStateFile_of_rejected (e : Emulator) (path : String) {text : String}
    {error : SaveStateError} (h : SaveState.ofText text = .error error) :
    e.loadStateFile path (.ok text) =
      { emulator := e
        notices := [loadedStateLine path (.error (.refused error))]
        value := .error (.refused error) } := by
  simp only [loadStateFile, stateFrom, h]
  rfl

/-- The state of a file takes the place of the machine's own, and only the log tells of it. -/
theorem loadStateFile_of_ok (e : Emulator) (path : String) {text : String} {s : SaveState}
    (h : SaveState.ofText text = .ok s) :
    e.loadStateFile path (.ok text) =
      { emulator := { e with machine := (e.machine.restoring s).machine }
        notices := [loadedStateLine path (.ok ())]
        value := .ok () } := by
  have hresult := e.machine.restoring_result_of_ofText h
  have hsignals : (e.machine.restoring s).signals = [] := by
    have hrestores := e.machine.restoring_spec s
    generalize e.machine.restoring s = r at hrestores
    cases hrestores <;> rfl
  simp only [loadStateFile, stateFrom, h, loadState, hresult, hsignals]
  rfl

end Emulator

/-- **Restoring is all or nothing.** In every machine, a snapshot with a memory or a screen of the
wrong size is refused and changes nothing, and any other is installed as it stands, as far as a
machine can hold it. Snapshots that were read are never refused. A file that cannot be read or
holds no snapshot leaves the emulator as it was. -/
theorem restoring_all_or_nothing :
    (∀ (m : Machine) (s : SaveState), m.Restores s (m.restoring s)) ∧
      (∀ (m : Machine) (text : String) (s : SaveState), SaveState.ofText text = .ok s →
        (m.restoring s).result = .ok ()) ∧
      ∀ (e : Emulator) (path : String),
        (∀ error, e.loadStateFile path (.error error) =
          { emulator := e
            notices := [Emulator.loadedStateLine path (.error (.access error))]
            value := .error (.access error) }) ∧
        (∀ text error, SaveState.ofText text = .error error →
          e.loadStateFile path (.ok text) =
            { emulator := e
              notices := [Emulator.loadedStateLine path (.error (.refused error))]
              value := .error (.refused error) }) ∧
        ∀ text s, SaveState.ofText text = .ok s →
          e.loadStateFile path (.ok text) =
            { emulator := { e with machine := (e.machine.restoring s).machine }
              notices := [Emulator.loadedStateLine path (.ok ())]
              value := .ok () } :=
  ⟨Machine.restoring_spec, fun m _ _ h => m.restoring_result_of_ofText h, fun e path =>
    ⟨e.loadStateFile_of_unreadable path, fun _ _ h => e.loadStateFile_of_rejected path h,
      fun _ _ h => e.loadStateFile_of_ok path h⟩⟩

end Chip8
