import Chip8.Proofs.Machine.Interleaving
import Chip8.Proofs.Machine.Performing

/-!
# Waiting for a key

While no key is held, an instruction that awaits one is run again and again. Nothing comes of it
but the trace, which shows the word, and what stood in the trace does not matter to the step that
finds a key. So steps that wait are stutters: any number of them can be put between the ticks of the
clock (`Awaits.stutters`).

**Theorem (`key_wait_stutters`).** A step is pending exactly if the word at the program counter
awaits a key and none is held. Steps that wait make no difference to the machine that gets its key.
-/

namespace Chip8.Machine

variable {m : Machine} {op : Opcode} {x : Register} {k : Key}

/-- The word at the program counter awaits a key for `Vx`, and no key is held. -/
structure Awaits (m : Machine) (op : Opcode) (x : Register) : Prop where
  holds : m.Holds op
  spells : op.Spells (.awaitKey x)
  idle : m.keypad.held = none

def showing (m : Machine) (text : String) : Machine :=
  { m with trace := text }

theorem step_showing (h : m.Holds op) (text : String) : (m.showing text).step = m.step := by
  have hfetch : m.fetch = .ok op := fetch_eq_ok_iff.2 h
  have hsame : (m.showing text).fetch = .ok op := hfetch
  rw [step, step, hfetch, hsame]
  rfl

/-! ## One step -/

/-- Without a key the instruction points back at itself. -/
theorem step_of_awaits (h : m.Awaits op x) :
    m.step =
      { machine := m.showing (traceText op (.awaitKey x)), result := .ok .waiting } := by
  have hidle : (m.decoded op (.awaitKey x)).keypad.held = none := h.idle
  have hpc : m.pc + 2 - 2 = m.pc := UInt16.add_sub_cancel _ _
  rw [step_of_spells h.holds h.spells]
  apply executeCounted_of_waiting
  rw [perform, waitForKey, hidle]
  simp only [decoded, advance, showing, hpc]

theorem step_of_held (hholds : m.Holds op) (hspells : op.Spells (.awaitKey x))
    (h : m.keypad.held = some k) :
    m.step =
      { machine := ((m.decoded op (.awaitKey x)).setReg x (UInt8.ofNat k.code)).countCycle } := by
  have hheld : (m.decoded op (.awaitKey x)).keypad.held = some k := h
  rw [step_of_spells hholds hspells]
  apply executeCounted_of_done
  rw [perform, waitForKey, hheld]

/-- **When a step is pending.** -/
theorem step_eq_waiting_iff : m.step.result = .ok .waiting ↔ ∃ op x, m.Awaits op x := by
  constructor
  · intro h
    rcases m.step_cases with ⟨e, -, hstep⟩ | ⟨op, e, -, -, hstep⟩ |
      ⟨op, ins, hfetch, hdecode, hstep⟩
    · rw [hstep] at h
      cases h
    · rw [hstep] at h
      cases h
    · rw [hstep, executeCounted_result, mapError_eq_ok_iff, perform_eq_waiting_iff] at h
      obtain ⟨⟨x, rfl⟩, hidle⟩ := h
      exact ⟨op, x, fetch_eq_ok_iff.1 hfetch, Opcode.decode_eq_ok_iff.1 hdecode, hidle⟩
  · rintro ⟨op, x, h⟩
    rw [step_of_awaits h]

/-! ## Runs -/

theorem Awaits.showing (h : m.Awaits op x) (text : String) : (m.showing text).Awaits op x :=
  ⟨h.holds, h.spells, h.idle⟩

theorem Awaits.onDevices (h : m.Awaits op x) (f : Timers → Timers) :
    (m.onDevices f id).Awaits op x :=
  ⟨h.holds, h.spells, h.idle⟩

/-- Steps that wait leave the trace, and the ticks between them gather in the timers. -/
theorem Awaits.stutters (h : m.Awaits op x) {steps ticks : Nat} {keys events : List Event}
    (hplaced : Interleaves steps ticks keys events) (hkeys : keys = []) :
    (∃ text, m.after events = (m.showing text).onDevices (·.afterTicks ticks) id) ∧
      m.results events = .replicate steps (.ok .waiting) ∧
      m.heard events = m.timers.signalsOf ticks := by
  induction hplaced generalizing m with
  | nil => exact ⟨⟨m.trace, rfl⟩, rfl, rfl⟩
  | step _ ih =>
    simp only [after, results, heard, react, step_of_awaits h]
    obtain ⟨⟨text, hafter⟩, hresults, hheard⟩ := ih (h.showing _) hkeys
    exact ⟨⟨text, hafter⟩, congrArg _ hresults, hheard⟩
  | tick _ ih =>
    obtain ⟨⟨text, hafter⟩, hresults, hheard⟩ := ih (h.onDevices (·.tick.1)) hkeys
    exact ⟨⟨text, hafter⟩, hresults, congrArg _ hheard⟩
  | key => cases hkeys

/-- The machine after ticks and with a key down. -/
def withKey (m : Machine) (ticks : Nat) (k : Key) : Machine :=
  m.onDevices (·.afterTicks ticks) (·.press k)

/-- The key that comes at last is taken over as if no step had waited. -/
theorem Awaits.resolves (h : m.Awaits op x) {steps ticks : Nat} {events : List Event}
    (hplaced : Interleaves steps ticks [] events) (k : Key) :
    m.after (events ++ [.press k, .step]) = (m.withKey ticks k).step.machine ∧
      m.results (events ++ [.press k, .step]) =
        .replicate steps (.ok .waiting) ++ [(m.withKey ticks k).step.result] ∧
      m.heard (events ++ [.press k, .step]) =
        m.timers.signalsOf ticks ++ (m.withKey ticks k).step.signals := by
  obtain ⟨⟨text, hafter⟩, hresults, hheard⟩ := h.stutters hplaced rfl
  have hholds : (m.withKey ticks k).Holds op := h.holds
  have hstep : ((m.after events).press k).step = (m.withKey ticks k).step := by
    rw [hafter]
    exact step_showing hholds text
  rw [after_append, results_append, heard_append, hresults, hheard]
  simp only [after, results, heard, react, hstep]
  exact ⟨trivial, rfl, congrArg _ (List.append_nil _)⟩

/-- What the machine is, so many ticks later, when it gets a key. -/
structure Answers (m : Machine) (x : Register) (k : Key) (ticks : Nat) (m' : Machine) : Prop where
  register : (m'.reg x).toNat = k.code
  others : ∀ r, r ≠ x → m'.reg r = m.reg r
  pc : m'.pc.toNat = m.pc.toNat + 2
  cycles : m'.cycles =
    if m.control.stopped = false ∧ m.control.paused = false ∧ m.cycles < maxCycles then
      m.cycles + 1
    else m.cycles
  timers : m'.timers = m.timers.afterTicks ticks
  keypad : m'.keypad.held = some k
  same : m'.memory = m.memory ∧ m'.index = m.index ∧ m'.stack = m.stack ∧
    m'.screen = m.screen ∧ m'.generator = m.generator ∧ m'.control = m.control

theorem Awaits.answers (h : m.Awaits op x) (ticks : Nat) (k : Key) :
    (m.withKey ticks k).step.result = .ok .executed ∧ (m.withKey ticks k).step.signals = [] ∧
      m.Answers x k ticks (m.withKey ticks k).step.machine := by
  have hholds : (m.withKey ticks k).Holds op := h.holds
  have hpc := (toNat_advance_pc (fetch_eq_ok_iff.2 h.holds)).1
  have hcode : (UInt8.ofNat k.code).toNat = k.code :=
    UInt8.toNat_ofNat_of_lt' (Nat.lt_trans k.code.isLt (by decide))
  rw [step_of_held hholds h.spells rfl, countCycle_eq]
  refine ⟨rfl, rfl, ?_, fun r hr => ?_, hpc, rfl, rfl, rfl, rfl, rfl, rfl, rfl, rfl, rfl⟩
  · exact (congrArg UInt8.toNat (Registers.get_set_self _ _ _)).trans hcode
  · exact Registers.get_set_of_ne _ _ hr

/-- **Waiting for a key is stuttering.** A step is pending exactly if the word at the program
counter awaits a key and none is held, and then nothing but the trace changes. However many steps
wait, and wherever the clock ticks between them, the step after the key went down leads to the
machine that saw only the ticks and the key. -/
theorem key_wait_stutters (m : Machine) :
    (m.step.result = .ok .waiting ↔ ∃ op x, m.Awaits op x) ∧
    (m.step.result = .ok .waiting →
      m.step.signals = [] ∧ m.step.machine = { m with trace := m.step.machine.trace }) ∧
    ∀ op x, m.Awaits op x → ∀ steps ticks events k, Interleaves steps ticks [] events →
      m.after (events ++ [.press k, .step]) =
          m.after (.replicate ticks .tick ++ [.press k, .step]) ∧
        m.results (events ++ [.press k, .step]) =
          .replicate steps (.ok .waiting) ++ [.ok .executed] ∧
        m.heard (events ++ [.press k, .step]) = m.timers.signalsOf ticks ∧
        m.Answers x k ticks (m.after (events ++ [.press k, .step])) := by
  refine ⟨step_eq_waiting_iff, fun hwaiting => ?pending, fun op x h => ?resolved⟩
  case pending =>
    obtain ⟨op, x, h⟩ := step_eq_waiting_iff.1 hwaiting
    rw [step_of_awaits h]
    exact ⟨rfl, rfl⟩
  case resolved =>
    intro steps ticks events k hplaced
    obtain ⟨hexecuted, hsilent, hanswers⟩ := h.answers ticks k
    obtain ⟨hafter, hresults, hheard⟩ := h.resolves hplaced k
    obtain ⟨hticks, -, -⟩ := h.resolves (Interleaves.replicate_tick ticks) k
    rw [hexecuted] at hresults
    rw [hsilent, List.append_nil] at hheard
    exact ⟨hafter.trans hticks.symm, hresults, hheard, hafter ▸ hanswers⟩

/-- A machine whose program `LD VF, K` waits for a key. -/
def asking : Machine :=
  { fresh (.ofSeed 0 0 0 0) with memory := Memory.fresh.load #[0xFF, 0x0A] }

theorem awaits_asking : asking.Awaits ⟨0xFF0A⟩ .vF where
  holds := holds_of_load (i := 0) rfl (by decide) (by decide) (by decide) (by decide)
  spells := (by decide : 0xFF0A = 0xF * 0x1000 + 15 * 0x100 + 0x0A)
  idle := rfl

/-- Two steps wait, the clock ticks between them, and the key ends up in `VF`. -/
theorem key_wait_stutters_asking :
    asking.Awaits ⟨0xFF0A⟩ .vF ∧
      asking.results [.step, .tick, .step, .press ⟨5⟩, .step] =
        [.ok .waiting, .ok .waiting, .ok .executed] ∧
      ((asking.after [.step, .tick, .step, .press ⟨5⟩, .step]).reg .vF).toNat = 5 := by
  obtain ⟨-, -, hresolves⟩ := key_wait_stutters asking
  have hplaced : Interleaves 2 1 [] [.step, .tick, .step] := .step (.tick (.step .nil))
  obtain ⟨-, hresults, -, hanswers⟩ := hresolves _ _ awaits_asking _ _ _ ⟨5⟩ hplaced
  exact ⟨awaits_asking, hresults, hanswers.register⟩

end Chip8.Machine
