import Chip8.Proofs.Emulator.Stopping
import Chip8.Proofs.Emulator.Twins
import Chip8.Proofs.Screen

/-!
# What a program finds

Loading a program halts the machine, clears the program area, resets the machine and places the
program. What the program finds then is described by what it may rely on, not by these steps: the
program stands in an empty program area (`Memory.Programmed`), and all else is as in a machine that
has not run, but for the generator, the keypad and the request to pause (`Machine.Started`).

This describes a single machine (`Started.unique`), so nothing of the past is left in it.

**Theorem (`program_erases_history`).** A program is loaded as far as it fits and starts in this
machine, and one that cannot be read leaves it without a program.
-/

namespace Chip8

/-! ## Memory -/

namespace Memory

/-- The second memory is the first with a program in its program area, and nothing else there. -/
structure Programmed (memory : Memory) (program : Array UInt8) (memory' : Memory) : Prop where
  below : ∀ a < 0x200, memory'.read a = memory.read a
  placed : ∀ i, (h : i < program.size) → i < 3583 → memory'.read (0x200 + i) = .ok program[i]
  above : ∀ a, 0x200 + program.size ≤ a → a ≤ 0xFFE → memory'.read a = .ok 0

variable {memory memory' m₁ m₂ : Memory} {program : Array UInt8}

theorem programmed_clear (memory : Memory) : memory.Programmed #[] memory.clear where
  below _ ha := read_clear_of_lt ha
  placed i hi := absurd hi (Nat.not_lt_zero i)
  above _ ha hcell := read_clear_of_le ha (Nat.lt_succ_of_le hcell)

theorem Programmed.load (h : memory.Programmed #[] memory') (program : Array UInt8) :
    memory.Programmed program (memory'.load program) where
  below a ha := (read_load_of_lt ha).trans (h.below a ha)
  placed i hi hfit := by
    have hcell : programStart + i < size := Nat.add_lt_add_left hfit 0x200
    exact (read_of_lt hcell).trans (congrArg _ (getElem_load hi hcell))
  above a ha hcell := by
    rw [read_load_of_le ha (Nat.lt_succ_of_le hcell)]
    exact h.above a (Nat.le_of_add_right_le ha) hcell

/-- The cells below the program area and the program tell what the memory is. -/
theorem Programmed.unique (h : memory.Programmed program m₁) (h' : memory'.Programmed program m₂)
    (hbelow : ∀ a < 0x200, memory'.read a = memory.read a) : m₂ = m₁ := by
  refine ext_read fun a => ?_
  rcases Nat.lt_or_ge a 0x200 with hlow | hlow
  · rw [h'.below a hlow, h.below a hlow, hbelow a hlow]
  rcases Nat.lt_or_ge a size with hcell | hcell
  · rcases Nat.lt_or_ge a (0x200 + program.size) with hin | hpast
    · obtain ⟨i, rfl⟩ := Nat.exists_eq_add_of_le hlow
      have hi : i < program.size := Nat.lt_of_add_lt_add_left hin
      have hfit : i < 3583 := Nat.lt_of_add_lt_add_left hcell
      rw [h'.placed i hi hfit, h.placed i hi hfit]
    · have hle : a ≤ 0xFFE := Nat.le_of_lt_succ hcell
      rw [h'.above a hpast hle, h.above a hpast hle]
  · rw [read_of_le hcell, read_of_le hcell]

end Memory

/-! ## The machine -/

namespace Machine

/-- The second machine is the first at the start of a program. -/
structure Started (m : Machine) (program : Array UInt8) (m' : Machine) : Prop where
  memory : m.memory.Programmed program m'.memory
  registers : ∀ r, m'.reg r = 0
  index : m'.index = 0
  pc : m'.pc = 0x200
  stack : m'.stack.frames = []
  screen : ∀ p, m'.screen.read p = false
  delay : m'.timers.delay = 0
  sound : m'.timers.sound = 0
  cycles : m'.cycles = 0
  trace : m'.trace = ""
  stopped : m'.control.stopped = false
  -- What is left alone.
  paused : m'.control.paused = m.control.paused
  generator : m'.generator = m.generator
  keypad : m'.keypad = m.keypad

/-- The machines agree in what a program leaves alone. -/
structure KeptAlike (m m' : Machine) : Prop where
  below : ∀ a < 0x200, m'.memory.read a = m.memory.read a
  paused : m'.control.paused = m.control.paused
  generator : m'.generator = m.generator
  keypad : m'.keypad = m.keypad

variable {m m' n n' : Machine} {program : Array UInt8}

/-- A machine that starts over is at the start of what its memory holds. -/
theorem started_reset (hmemory : m.memory.Programmed program m'.memory)
    (hpaused : m'.control.paused = m.control.paused) (hgenerator : m'.generator = m.generator)
    (hkeypad : m'.keypad = m.keypad) : m.Started program m'.reset.clearStop where
  memory := hmemory
  registers r := by
    show Registers.zero.get r = 0
    simp [Registers.zero, Registers.get]
  index := rfl
  pc := rfl
  stack := rfl
  screen p := by
    show Screen.blank.read p = false
    simp [Screen.blank, Screen.read]
  delay := rfl
  sound := rfl
  cycles := rfl
  trace := rfl
  stopped := rfl
  paused := hpaused
  generator := hgenerator
  keypad := hkeypad

theorem cleared_frame (m : Machine) :
    m.cleared.memory = m.memory.clear ∧ m.cleared.control = m.control ∧
      m.cleared.generator = m.generator ∧ m.cleared.keypad = m.keypad := by
  unfold cleared
  exact ⟨rfl, rfl, rfl, rfl⟩

theorem started_cleared (m : Machine) : m.Started #[] m.cleared.reset.clearStop := by
  obtain ⟨hmemory, hcontrol, hgenerator, hkeypad⟩ := m.cleared_frame
  have hprogrammed : m.memory.Programmed #[] m.cleared.memory := by
    rw [hmemory]
    exact m.memory.programmed_clear
  exact started_reset hprogrammed (congrArg Control.paused hcontrol) hgenerator hkeypad

/-- Whether the machine was stopped before, or while it was cleared, makes no difference. -/
theorem Started.of_stop (h : m.stop.Started program m'.reset.clearStop) :
    m.Started program m'.stop.reset.clearStop :=
  { h with }

theorem Started.withMemory {program' : Array UInt8} {memory : Memory} (h : m.Started program' m')
    (hmemory : m.memory.Programmed program memory) :
    m.Started program { m' with memory := memory } :=
  { h with memory := hmemory }

theorem Started.loaded (h : m.Started #[] m') (program : Array UInt8) :
    m.Started program (m'.loaded program) := by
  unfold Machine.loaded
  exact h.withMemory (h.memory.load program)

/-- **There is only one such machine** for a program and for what it leaves alone. -/
theorem Started.unique (h : m.Started program n) (h' : m'.Started program n')
    (hkept : m.KeptAlike m') : n' = n := by
  have hmemory := h.memory.unique h'.memory hkept.below
  have hregisters := Registers.ext_get fun r => (h'.registers r).trans (h.registers r).symm
  have hscreen := Screen.ext_read fun p => (h'.screen p).trans (h.screen p).symm
  have hstack : n'.stack = n.stack := congrArg CallStack.mk (h'.stack.trans h.stack.symm)
  have htimers : n'.timers = n.timers :=
    congrArg₂ Timers.mk (h'.delay.trans h.delay.symm) (h'.sound.trans h.sound.symm)
  have hpaused := (h'.paused.trans hkept.paused).trans h.paused.symm
  have hcontrol : n'.control = n.control :=
    congrArg₂ Control.mk (h'.stopped.trans h.stopped.symm) hpaused
  have hgenerator := (h'.generator.trans hkept.generator).trans h.generator.symm
  have hkeypad := (h'.keypad.trans hkept.keypad).trans h.keypad.symm
  cases n
  cases n'
  rw [Machine.mk.injEq]
  exact ⟨hmemory, hregisters, h'.index.trans h.index.symm, h'.pc.trans h.pc.symm, hstack, hscreen,
    htimers, hkeypad, hgenerator, h'.cycles.trans h.cycles.symm, h'.trace.trans h.trace.symm,
    hcontrol⟩

end Machine

/-! ## The emulator -/

namespace Emulator

/-- The second emulator is the first at the start of a program. -/
structure Started (e : Emulator) (program : Array UInt8) (e' : Emulator) : Prop where
  machine : e.machine.Started program e'.machine
  speed : e'.speed = e.speed
  keys : e'.keys = e.keys
  options : e'.options = e.options

/-- No timer is heard in the notices. -/
def Quiet (notices : List Notice) : Prop :=
  ∀ audio signal, ∀ n ∈ Audio.notices audio signal, n ∉ notices

variable {e e' : Emulator}

theorem started_unload (e : Emulator) : e.Started #[] e.unload.emulator := by
  obtain ⟨hspeed, hkeys, hoptions⟩ := e.unload_setup
  have hmachine : e.unload.emulator.machine = e.machine.stop.cleared.stop.reset.clearStop := rfl
  refine ⟨?_, hspeed, hkeys, hoptions⟩
  rw [hmachine]
  exact e.machine.stop.started_cleared.of_stop

theorem started_loadProgram (e : Emulator) (bytes : ByteArray) :
    e.Started bytes.data (e.loadProgram (.ok bytes)).emulator := by
  obtain ⟨hspeed, hkeys, hoptions⟩ := e.loadProgram_setup (.ok bytes)
  have hmachine : (e.loadProgram (.ok bytes)).emulator.machine =
      e.unload.emulator.machine.loaded bytes.data := rfl
  refine ⟨?_, hspeed, hkeys, hoptions⟩
  rw [hmachine]
  exact e.started_unload.machine.loaded bytes.data

/-! ## What is heard -/

theorem quiet_of_lines {notices : List Notice}
    (h : ∀ n ∈ notices, ∃ text, n = .line .info text ∨ n = .line .warn text) : Quiet notices := by
  intro audio signal n hsignal hmem
  obtain ⟨text, rfl | rfl⟩ := h n hmem <;> cases audio <;> cases signal <;>
    simp [Audio.notices, Notice.line] at hsignal

theorem loadedLine_cases (size : Nat) :
    ∃ text, loadedLine size = .line .info text ∨ loadedLine size = .line .warn text := by
  rw [loadedLine]
  split
  · exact ⟨_, .inr rfl⟩
  · exact ⟨_, .inl rfl⟩

theorem quiet_loadProgram (e : Emulator) (source : Source) :
    Quiet (e.loadProgram source).notices := by
  have hhalt : ∀ n ∈ e.unload.notices, ∃ text, n = .line .info text ∨ n = .line .warn text := by
    have hnotices : e.unload.notices = if e.isRunning then [driverStopped] else [] := rfl
    intro n hn
    rw [hnotices] at hn
    split at hn
    · rw [List.mem_singleton.1 hn]
      exact ⟨_, .inl rfl⟩
    · cases hn
  cases source with
  | error error => exact quiet_of_lines hhalt
  | ok bytes =>
    refine quiet_of_lines fun n hn => ?_
    rcases List.mem_append.1 hn with hn | hn
    · exact hhalt n hn
    · rw [List.mem_singleton.1 hn]
      exact loadedLine_cases _

/-! ## The law -/

/-- What loading a program does. -/
structure Loads (e : Emulator) (program : Array UInt8) (r : Reply (Except FileError Nat)) :
    Prop where
  value : r.value = .ok (min program.size 3583)
  started : e.Started program r.emulator
  quiet : Quiet r.notices

/-- Neither a snapshot nor a step tells the emulators apart. -/
structure LooksLike (e e' : Emulator) : Prop where
  saved : e'.saveState = e.saveState
  stepped : e'.step.value = e.step.value

theorem Twins.looksLike (h : e.Twins e') : e.LooksLike e' :=
  ⟨congrArg Machine.capture h.machine, h.step.value⟩

/-- The same program makes twins of emulators with different pasts. -/
theorem twins_loadProgram (hkept : e.machine.KeptAlike e'.machine) (source : Source) :
    (e.loadProgram source).emulator.Twins (e'.loadProgram source).emulator where
  machine := by
    cases source with
    | error error => exact e.started_unload.machine.unique e'.started_unload.machine hkept
    | ok bytes =>
      have hstarted := (e.started_loadProgram bytes).machine
      exact hstarted.unique (e'.started_loadProgram bytes).machine hkept
  driving := (e'.loadProgram_frame source).2.2.trans (e.loadProgram_frame source).2.2.symm

/-- **A program erases what came before it.** As much of it is loaded as fits, and it starts in a
machine that does not depend on the past. So two emulators that agree in what a program leaves
alone can never be told apart after the same program was loaded, whatever is done to them, unless
a host key stands for different keys in them. A source that fails leaves no program, and a file
that cannot be opened changes nothing. -/
theorem program_erases_history (e : Emulator) :
    (∀ bytes : ByteArray, e.Loads bytes.data (e.loadProgram (.ok bytes))) ∧
    (∀ (e' : Emulator) (source : Source) (operations : List Operation),
      e.machine.KeptAlike e'.machine →
      (∀ o ∈ operations, o.UsesBindings → e'.keys = e.keys) →
        ((e.loadProgram source).emulator.operated operations).LooksLike
          ((e'.loadProgram source).emulator.operated operations)) ∧
    (∀ error, (e.loadProgram (.error error)).value = .error error ∧
      e.Started #[] (e.loadProgram (.error error)).emulator) ∧
    ∀ path error, e.loadProgramFile path (.error error) =
      { emulator := e, notices := [], value := .error (.notOpened path error) } := by
  refine ⟨fun bytes => ?loads, fun e' source operations hkept hkeys => ?pasts, fun error => ?fails,
    fun path error => rfl⟩
  case loads => exact ⟨rfl, e.started_loadProgram bytes, e.quiet_loadProgram (.ok bytes)⟩
  case pasts =>
    have htwins := twins_loadProgram hkept source
    refine (htwins.operated fun o hmem huses => ?_).looksLike
    rw [(e.loadProgram_setup source).2.1, (e'.loadProgram_setup source).2.1]
    exact hkeys o hmem huses
  case fails => exact ⟨rfl, e.started_unload⟩

/-- The emulator after another program, which left this memory behind. -/
def used (e : Emulator) (memory : Memory) : Emulator :=
  { e with
    machine := { e.machine with
      memory := memory
      registers := Registers.zero.set .vF 7
      stack := ⟨[0x204]⟩
      timers := ⟨3, 9⟩
      cycles := 2
      trace := "2200 CALL 0x200"
      control := { e.machine.control with stopped := true } }
    driving := true }

theorem keptAlike_used (e : Emulator) {memory : Memory}
    (h : ∀ a < 0x200, memory.read a = e.machine.memory.read a) :
    e.machine.KeptAlike (e.used memory).machine :=
  ⟨h, rfl, rfl, rfl⟩

theorem used_keys (e : Emulator) (memory : Memory) : (e.used memory).keys = e.keys := rfl

/-- The standard emulator after another program. -/
def secondHand : Emulator :=
  standard.used (standard.machine.memory.load #[0x61, 0x07, 0x22, 0x00])

/-- After the next program was loaded, a step, a tick and another step tell nothing of the past. -/
theorem program_erases_history_secondHand :
    standard.machine.KeptAlike secondHand.machine ∧
      (secondHand.loadProgram (.ok ⟨#[0xF1, 0x15]⟩)).value = .ok 2 ∧
      ((standard.loadProgram (.ok ⟨#[0xF1, 0x15]⟩)).emulator.operated
          [.request .step, .request .tick, .request .step]).LooksLike
        ((secondHand.loadProgram (.ok ⟨#[0xF1, 0x15]⟩)).emulator.operated
          [.request .step, .request .tick, .request .step]) := by
  obtain ⟨hloads, -, -, -⟩ := program_erases_history secondHand
  obtain ⟨-, hpasts, -, -⟩ := program_erases_history standard
  have hkept : standard.machine.KeptAlike secondHand.machine :=
    standard.keptAlike_used fun _ ha => Memory.read_load_of_lt ha
  have hkeys : secondHand.keys = standard.keys := standard.used_keys _
  exact ⟨hkept, (hloads ⟨#[0xF1, 0x15]⟩).value, hpasts _ _ _ hkept fun _ _ _ => hkeys⟩

end Emulator

end Chip8
