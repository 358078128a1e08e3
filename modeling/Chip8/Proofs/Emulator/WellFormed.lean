import Chip8.Proofs.Binary64
import Chip8.Proofs.Emulator.Request

/-!
# What holds in every state of an emulator

A host asks an emulator for things and can also reach into its machine: it can execute single
instructions, write registers and cells, put in generators and restore snapshots that no machine
ever had (`Operation`). The sizes, the bytes, the held key and the positive speed are part of what
these things are. The ranges of the counter and the generator are not (`Steady`): a counter is cut
off and a generator replaced wherever one comes in.

**Theorem (`operations_keep_well_formed`).** An emulator is well-formed after any operations, and a
speed that it refuses changes nothing.
-/

namespace Chip8

/-! ## Reaching into a machine -/

/-- What a host can do to a machine directly. -/
inductive Access where
  | event (e : Event)
  /-- An instruction is executed, be it in memory or not. -/
  | execute (ins : Instruction)
  /-- A register is set by its index, which may be that of none. -/
  | pokeRegister (index : Nat) (value : UInt8)
  | setRegisters (regs : Registers)
  | setIndex (address : UInt16)
  | setPc (address : UInt16)
  | setStack (stack : CallStack)
  | setScreen (screen : Screen)
  | setTrace (text : String)
  | setCycles (cycles : Nat)
  /-- A generator is made from a seed and put in after some draws. -/
  | seedGenerator (x y z w : UInt32) (draws : Nat)
  /-- A generator is made from the bytes of a state and put in after some draws. -/
  | loadGenerator (bytes : Vector UInt8 16) (draws : Nat)
  | writeMemory (address : Nat) (byte : UInt8)
  /-- Memory is replaced, if there are exactly enough cells. -/
  | replaceMemory (cells : List UInt8)
  | clearMemory
  | loadMemory (program : Array UInt8)
  | setDelay (value : UInt8)
  | setSound (value : UInt8)
  | loadSound (value : UInt8)
  | countDelay
  | countSound
  | restore (s : SaveState)

namespace Machine

def access (m : Machine) : Access → Machine
  | .event e => (m.react e).machine
  | .execute ins => (m.execute ins).machine
  | .pokeRegister index value =>
    match m.registers.poke index value with
    | .ok regs => { m with registers := regs }
    | .error _ => m
  | .setRegisters regs => { m with registers := regs }
  | .setIndex address => { m with index := address }
  | .setPc address => { m with pc := address }
  | .setStack stack => { m with stack := stack }
  | .setScreen screen => { m with screen := screen }
  | .setTrace text => { m with trace := text }
  | .setCycles cycles => m.setCycles cycles
  | .seedGenerator x y z w draws => { m with generator := (Generator.ofSeed x y z w).skip draws }
  | .loadGenerator bytes draws => { m with generator := (Generator.ofBytes bytes).skip draws }
  | .writeMemory address byte =>
    match m.memory.write address byte with
    | .ok memory => { m with memory := memory }
    | .error _ => m
  | .replaceMemory cells =>
    match Memory.ofList? cells with
    | some memory => { m with memory := memory }
    | none => m
  | .clearMemory => m.cleared
  | .loadMemory program => m.loaded program
  | .setDelay value => { m with timers := m.timers.setDelay value }
  | .setSound value => { m with timers := (m.timers.setSound value).1 }
  | .loadSound value => { m with timers := m.timers.loadSound value }
  | .countDelay => { m with timers := m.timers.countDelay.1 }
  | .countSound => { m with timers := m.timers.countSound.1 }
  | .restore s => (m.restoring s).machine

theorem Steady.setGenerator {m : Machine} (h : m.Steady) {g : Generator} (hg : g.Nonzero)
    (draws : Nat) : { m with generator := g.skip draws }.Steady :=
  ⟨h.cycles_le, Generator.nonzero_skip hg draws⟩

/-- No access takes the counter or the generator out of its range. -/
theorem Steady.access {m : Machine} (h : m.Steady) (a : Access) : (m.access a).Steady := by
  cases a with
  | event e => exact h.react e
  | execute ins => exact h.of_keeps (m.keeps_perform ins)
  | pokeRegister index value =>
    rw [Machine.access]
    split
    · exact ⟨h.cycles_le, h.generator_nonzero⟩
    · exact h
  | setCycles cycles => exact ⟨Nat.min_le_right _ _, h.generator_nonzero⟩
  | seedGenerator x y z w draws => exact h.setGenerator (Generator.nonzero_ofSeed x y z w) draws
  | loadGenerator bytes draws => exact h.setGenerator (Generator.nonzero_ofBytes bytes) draws
  | writeMemory address byte =>
    rw [Machine.access]
    split
    · exact ⟨h.cycles_le, h.generator_nonzero⟩
    · exact h
  | replaceMemory cells =>
    rw [Machine.access]
    split
    · exact ⟨h.cycles_le, h.generator_nonzero⟩
    · exact h
  | clearMemory => exact h.of_keeps m.keeps_cleared
  | loadMemory program => exact h.of_keeps (m.keeps_loaded program)
  | restore s => exact h.restoring s
  -- The others write a part of the machine that is neither.
  | _ => exact ⟨h.cycles_le, h.generator_nonzero⟩

end Machine

/-! ## Operations -/

/-- What a host can do. -/
inductive Operation where
  | request (r : Request)
  | access (a : Access)

namespace Emulator

def operate (e : Emulator) : Operation → Emulator
  | .request r => e.serve r
  | .access a => e.withMachine (·.access a)

def operated (e : Emulator) : List Operation → Emulator
  | [] => e
  | o :: operations => (e.operate o).operated operations

theorem stable_steady : Stable fun e => e.machine.Steady where
  step h := h.step
  tick h := h.react .tick
  stop h := h.react .stop

theorem steady_keyUp {e : Emulator} (h : e.machine.Steady) (key : HostKey) :
    (e.keyUp key).machine.Steady := by
  rw [keyUp]
  split
  · next k _ => exact h.react (.releaseKey k)
  · exact h

theorem steady_reset {e : Emulator} (h : e.machine.Steady) : e.reset.emulator.machine.Steady :=
  ((h.react .stop).react .reset).react .clearStop

theorem steady_unload {e : Emulator} (h : e.machine.Steady) :
    e.unload.emulator.machine.Steady := by
  have hcleared : (e.halt.emulator.withMachine .cleared).machine.Steady :=
    (h.react .stop).of_keeps (Machine.keeps_cleared _)
  rw [unload_emulator]
  exact steady_reset hcleared

theorem steady_loadProgram {e : Emulator} (h : e.machine.Steady) (source : Source) :
    (e.loadProgram source).emulator.machine.Steady :=
  e.loadProgram_preserves source (steady_unload h) fun program =>
    (steady_unload h).of_keeps (Machine.keeps_loaded _ program)

theorem steady_serve {e : Emulator} (h : e.machine.Steady) (r : Request) :
    (e.serve r).machine.Steady := by
  cases r with
  | start =>
    rw [serve]
    exact e.start_preserves h h
  | pause => exact h.react .pause
  | resume => exact h.react .resume
  | stop => exact h.react .stop
  | step => exact h.step
  | executeCycles owed => exact stable_steady.executeCycles h owed
  | drive owed => exact stable_steady.driven h owed
  | tick => exact h.react .tick
  | setSpeed factor =>
    rw [serve, setSpeed]
    split <;> exact h
  | keyDown key => exact ⟨h.cycles_le, h.generator_nonzero⟩
  | keyUp key => exact steady_keyUp h key
  | loadState s => exact h.restoring s
  | loadStateFile path contents =>
    rw [serve]
    exact e.loadStateFile_preserves path contents h fun s => h.restoring s
  | reset => exact steady_reset h
  | loadProgram source => exact steady_loadProgram h source
  | loadProgramFile path opened =>
    rw [serve]
    exact e.loadProgramFile_preserves path opened h fun source => steady_loadProgram h source
  | _ => exact h

theorem steady_operated {e : Emulator} (h : e.machine.Steady) (operations : List Operation) :
    (e.operated operations).machine.Steady := by
  induction operations generalizing e with
  | nil => exact h
  | cons o operations ih =>
    cases o with
    | request r => exact ih (steady_serve h r)
    | access a => exact ih (h.access a)

theorem steady_create {options : Options} {x y z w : UInt32} {e : Emulator}
    (h : create options (.ofSeed x y z w) = .ok e) : e.machine.Steady := by
  rw [create] at h
  split at h
  · cases h
  · rw [← Except.ok.inj h]
    exact Machine.steady_fresh x y z w

/-! ## The law -/

/-- What holds in every state. -/
structure WellFormed (e : Emulator) : Prop where
  memory : e.machine.memory.toList.length = 4095
  cycles : e.machine.cycles ≤ 2147483647
  timers : e.machine.timers.delay.toNat ≤ 255 ∧ e.machine.timers.sound.toNat ≤ 255
  keyCode : e.machine.keypad.code < 16 ∨ e.machine.keypad.code = 255
  noKey : e.machine.keypad.held = none ↔ e.machine.keypad.code = 255
  generator : e.machine.generator.Nonzero
  speed : ∃ q : Rat, 0 < q ∧ Binary64.Denotes e.speed.factor q

end Emulator

theorem Keypad.code_cases (pad : Keypad) :
    pad.held = none ∧ pad.code = 255 ∨ pad.held ≠ none ∧ pad.code < 16 := by
  cases hheld : pad.held with
  | none => exact .inl ⟨rfl, by rw [code, hheld]; rfl⟩
  | some k =>
    refine .inr ⟨nofun, ?_⟩
    rw [code, hheld]
    exact k.code.isLt

theorem Speed.exists_denotes (speed : Speed) :
    ∃ q : Rat, 0 < q ∧ Binary64.Denotes speed.factor q := by
  obtain ⟨hpos, hfinite⟩ := Bool.and_eq_true_iff.1 speed.valid
  exact Binary64.exists_denotes_of_pos (of_decide_eq_true hpos) hfinite

namespace Emulator

theorem wellFormed_of_steady {e : Emulator} (h : e.machine.Steady) : e.WellFormed where
  memory := e.machine.memory.cells.length_toList
  cycles := h.cycles_le
  timers :=
    ⟨Nat.le_of_lt_succ e.machine.timers.delay.toNat_lt,
      Nat.le_of_lt_succ e.machine.timers.sound.toNat_lt⟩
  keyCode := e.machine.keypad.code_cases.elim (fun h => .inr h.2) (fun h => .inl h.2)
  noKey := by
    rcases e.machine.keypad.code_cases with ⟨hheld, hcode⟩ | ⟨hheld, hcode⟩
    · exact iff_of_true hheld hcode
    · exact iff_of_false hheld (by omega)
  generator := h.generator_nonzero
  speed := e.speed.exists_denotes

theorem setSpeed_of_refused {e : Emulator} {factor : Float}
    (h : (e.setSpeed factor).value ≠ .ok ()) :
    e.setSpeed factor = { emulator := e, notices := [], value := .error ⟨factor⟩ } := by
  rw [setSpeed, Speed.ofFloat] at h ⊢
  split
  · next error herror =>
    split at herror
    · cases herror
    · cases herror
      rfl
  · next speed hspeed =>
    rw [hspeed] at h
    exact absurd rfl h

/-- **An emulator is well-formed after any operations**, and a speed that it refuses then changes
nothing. -/
theorem operations_keep_well_formed {options : Options} {x y z w : UInt32} {e : Emulator}
    (h : create options (.ofSeed x y z w) = .ok e) (operations : List Operation) :
    (e.operated operations).WellFormed ∧
      ∀ factor, ((e.operated operations).setSpeed factor).value ≠ .ok () →
        (e.operated operations).setSpeed factor =
          { emulator := e.operated operations, notices := [], value := .error ⟨factor⟩ } :=
  ⟨wellFormed_of_steady (steady_operated (steady_create h) operations),
    fun _ => setSpeed_of_refused⟩

/-- The emulator with the standard options and the generator that stands in for four zeros. -/
def standard : Emulator where
  machine := .fresh (.ofSeed 0 0 0 0)
  speed := ⟨1, Options.isSpeed_default⟩
  clock := freshClock {}
  options := {}

theorem create_standard : create {} (.ofSeed 0 0 0 0) = .ok standard := by
  have hspeed : Speed.ofFloat 1 = .ok standard.speed := dif_pos standard.speed.valid
  rw [create, hspeed]
  rfl

/-- A seed and a counter that no machine can hold, a snapshot of the wrong size and two speeds. -/
def strain : List Operation :=
  [.access (.seedGenerator 0 0 0 0 5), .access (.setCycles 4294967295),
    .access (.restore { standard.machine.capture with screen := [] }),
    .request (.setSpeed 2.5), .request (.setSpeed (-1)), .access (.event .step)]

theorem operations_keep_well_formed_strain :
    create {} (.ofSeed 0 0 0 0) = .ok standard ∧ (standard.operated strain).WellFormed ∧
      ((standard.operated strain).setSpeed (-1)).value ≠ .ok () ∧
      (standard.operated strain).setSpeed (-1) =
        { emulator := standard.operated strain, notices := [], value := .error ⟨-1⟩ } := by
  obtain ⟨hwell, hrefused⟩ := operations_keep_well_formed create_standard strain
  have hspeed : isSpeed (-1) = false := by decide +kernel
  have hvalue : ((standard.operated strain).setSpeed (-1)).value ≠ .ok () := by
    rw [setSpeed, Speed.ofFloat, dif_neg (by rw [hspeed]; decide)]
    nofun
  exact ⟨create_standard, hwell, hvalue, hrefused (-1) hvalue⟩

end Emulator

end Chip8
