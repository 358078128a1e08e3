import Chip8.Proofs.Machine.Effects

/-!
# Steps that do not look at the devices

The clock ticks and keys go down and up while a program runs, so what a program does depends on
how these events fall between its steps. It does not while its instructions use neither the timers
nor the keypad: a step does the same whatever a device holds that it does not use, and leaves it as
it is (`step_onDevices`). So the steps of such a run can be done first, and what comes between them
only gathers in the devices (`Interleaves.gathers`).

**Theorem (`steps_exchange_with_devices`).** A step can be exchanged with a tick unless it uses the
timers, and with a key event unless it uses the keypad. All ways to place the same ticks and the
same key events between the steps of a detached run lead to the same machine.
-/

namespace Chip8

namespace Instruction

/-- The instruction reads or sets a timer. -/
def UsesTimers : Instruction → Prop
  | .getDelay _ | .setDelay _ | .setSound _ => True
  | _ => False

/-- The instruction looks at the keypad. -/
def UsesKeys : Instruction → Prop
  | .skipIfKey _ | .skipUnlessKey _ | .awaitKey _ => True
  | _ => False

end Instruction

def Event.IsKey : Event → Prop
  | .press _ | .release | .releaseKey _ => True
  | _ => False

/-- What a key event does to the keypad. -/
def Event.onKeypad : Event → Keypad → Keypad
  | .press k => fun pad => pad.press k
  | .release => fun pad => pad.release
  | .releaseKey k => fun pad => pad.releaseKey k
  | _ => id

def Keypad.afterEvents (pad : Keypad) : List Event → Keypad
  | [] => pad
  | e :: events => (e.onKeypad pad).afterEvents events

namespace Timers

/-- The timers after so many ticks. -/
def afterTicks (t : Timers) : Nat → Timers
  | 0 => t
  | n + 1 => t.tick.1.afterTicks n

/-- What the timers signal during so many ticks. -/
def signalsOf (t : Timers) : Nat → List Signal
  | 0 => []
  | n + 1 => t.tick.2 ++ t.tick.1.signalsOf n

end Timers

/-- Events of a run: `steps` steps, `ticks` ticks of the clock and, in this order, the key events
`keys`. -/
inductive Interleaves : Nat → Nat → List Event → List Event → Prop
  | nil : Interleaves 0 0 [] []
  | step {steps ticks : Nat} {keys events : List Event} : Interleaves steps ticks keys events →
      Interleaves (steps + 1) ticks keys (.step :: events)
  | tick {steps ticks : Nat} {keys events : List Event} : Interleaves steps ticks keys events →
      Interleaves steps (ticks + 1) keys (.tick :: events)
  | key {steps ticks : Nat} {keys events : List Event} {e : Event} : e.IsKey →
      Interleaves steps ticks keys events → Interleaves steps ticks (e :: keys) (e :: events)

theorem Interleaves.replicate_tick (ticks : Nat) :
    Interleaves 0 ticks [] (.replicate ticks .tick) := by
  induction ticks with
  | zero => exact .nil
  | succ ticks ih => exact .tick ih

/-- The outcome with its machine replaced. -/
def Outcome.map {ε : Type} (h : Machine → Machine) (out : Outcome ε) : Outcome ε :=
  { out with machine := h out.machine }

namespace Machine

def results (m : Machine) : List Event → List (Except StepError Status)
  | [] => []
  | e :: events => (m.react e).result?.toList ++ (m.react e).machine.results events

/-- What the timers signalled all along the events. -/
def heard (m : Machine) : List Event → List Signal
  | [] => []
  | e :: events => (m.react e).signals ++ (m.react e).machine.heard events

theorem after_append (m : Machine) (events rest : List Event) :
    m.after (events ++ rest) = (m.after events).after rest := by
  induction events generalizing m with
  | nil => rfl
  | cons e events ih => exact ih _

theorem results_append (m : Machine) (events rest : List Event) :
    m.results (events ++ rest) = m.results events ++ (m.after events).results rest := by
  induction events generalizing m with
  | nil => rfl
  | cons e events ih => simp only [List.cons_append, results, after, ih, List.append_assoc]

theorem heard_append (m : Machine) (events rest : List Event) :
    m.heard (events ++ rest) = m.heard events ++ (m.after events).heard rest := by
  induction events generalizing m with
  | nil => rfl
  | cons e events ih => simp only [List.cons_append, heard, after, ih, List.append_assoc]

/-- The two events lead to the same in either order. -/
structure Exchanges (m : Machine) (e e' : Event) : Prop where
  after : m.after [e, e'] = m.after [e', e]
  results : m.results [e, e'] = m.results [e', e]
  heard : m.heard [e, e'] = m.heard [e', e]

/-- The word at the program counter, if there is one, spells no such instruction. -/
def Avoids (m : Machine) (P : Instruction → Prop) : Prop :=
  ∀ op ins, m.Holds op → op.Spells ins → ¬P ins

/-- No step among the events executes an instruction that uses a device. -/
def Detached (m : Machine) : List Event → Prop
  | [] => True
  | e :: events =>
    (e = .step → m.Avoids Instruction.UsesTimers ∧ m.Avoids Instruction.UsesKeys) ∧
      (m.react e).machine.Detached events

variable {m : Machine} {f : Timers → Timers} {g : Keypad → Keypad}

/-! ## Replacing the devices -/

/-- The machine with its devices replaced. -/
def onDevices (f : Timers → Timers) (g : Keypad → Keypad) (m : Machine) : Machine :=
  { m with timers := f m.timers, keypad := g m.keypad }

theorem skipIf_onDevices (m : Machine) (condition : Bool) :
    (m.onDevices f g).skipIf condition = (m.skipIf condition).onDevices f g := by
  rw [skipIf, skipIf]
  split <;> rfl

theorem returnFromCall_onDevices (m : Machine) :
    (m.onDevices f g).returnFromCall = m.returnFromCall.map (onDevices f g) := by
  rw [returnFromCall, returnFromCall]
  simp only [onDevices]
  split <;> rfl

theorem waitForKey_onDevices (m : Machine) (x : Register) :
    (m.onDevices f id).waitForKey x = (m.waitForKey x).map (onDevices f id) := by
  rw [waitForKey, waitForKey]
  simp only [onDevices, id]
  split <;> rfl

theorem drawSprite_onDevices (m : Machine) (x y : Register) (rows : UInt8) :
    (m.onDevices f g).drawSprite x y rows = (m.drawSprite x y rows).map (onDevices f g) := by
  simp only [drawSprite, setReg, onDevices]
  split <;> rfl

theorem store_onDevices (m : Machine) (bytes : List UInt8) :
    (m.onDevices f g).store bytes = (m.store bytes).map (onDevices f g) := by
  rw [store, store]
  simp only [onDevices]
  split <;> rfl

theorem storeUpTo_onDevices (m : Machine) (x : Register) :
    (m.onDevices f g).storeUpTo x = (m.storeUpTo x).map (onDevices f g) := by
  rw [storeUpTo, storeUpTo]
  simp only [onDevices]
  split <;> rfl

theorem loadUpTo_onDevices (m : Machine) (x : Register) :
    (m.onDevices f g).loadUpTo x = (m.loadUpTo x).map (onDevices f g) := by
  rw [loadUpTo, loadUpTo]
  simp only [onDevices]
  split <;> rfl

/-- An instruction does the same whatever the devices hold that it does not use. -/
theorem perform_onDevices (m : Machine) {ins : Instruction} (hf : f = id ∨ ¬ins.UsesTimers)
    (hg : g = id ∨ ¬ins.UsesKeys) :
    (m.onDevices f g).perform ins = (m.perform ins).map (onDevices f g) := by
  cases ins with
  | getDelay x | setDelay x | setSound x =>
    obtain rfl : f = id := hf.resolve_right fun h => h trivial
    rfl
  | skipIfKey x | skipUnlessKey x =>
    obtain rfl : g = id := hg.resolve_right fun h => h trivial
    exact congrArg done (m.skipIf_onDevices _)
  | awaitKey x =>
    obtain rfl : g = id := hg.resolve_right fun h => h trivial
    exact m.waitForKey_onDevices x
  | skipIfByte x b | skipUnlessByte x b | skipIfSame x y | skipUnlessSame x y =>
    exact congrArg done (m.skipIf_onDevices _)
  | ret => exact m.returnFromCall_onDevices
  | draw x y n => exact m.drawSprite_onDevices x y n
  | storeDecimal x => exact m.store_onDevices _
  | storeRegisters x => exact m.storeUpTo_onDevices x
  | loadRegisters x => exact m.loadUpTo_onDevices x
  | _ => rfl

theorem countCycle_onDevices (m : Machine) :
    (m.onDevices f g).countCycle = m.countCycle.onDevices f g := by
  have hcounts : (m.onDevices f g).counts = m.counts := rfl
  rw [countCycle, countCycle, hcounts]
  split <;> rfl

theorem executeCounted_onDevices (m : Machine) {ins : Instruction}
    (hf : f = id ∨ ¬ins.UsesTimers) (hg : g = id ∨ ¬ins.UsesKeys) :
    (m.onDevices f g).executeCounted ins = (m.executeCounted ins).map (onDevices f g) := by
  simp only [executeCounted, execute, m.perform_onDevices hf hg, Outcome.map]
  split
  · rw [countCycle_onDevices]
  · rfl

/-- **A step does the same whatever the devices hold that it does not use.** -/
theorem step_onDevices (hf : f = id ∨ m.Avoids Instruction.UsesTimers)
    (hg : g = id ∨ m.Avoids Instruction.UsesKeys) :
    (m.onDevices f g).step = m.step.map (onDevices f g) := by
  rcases m.step_cases with ⟨e, hfetch, hstep⟩ | ⟨op, e, hfetch, hdecode, hstep⟩ |
    ⟨op, ins, hfetch, hdecode, hstep⟩
  · have hsame : (m.onDevices f g).fetch = .error e := hfetch
    rw [hstep, step_of_fetch_error hsame]
    rfl
  · have hsame : (m.onDevices f g).fetch = .ok op := hfetch
    rw [hstep, step_of_decode_error hsame hdecode]
    rfl
  · have hsame : (m.onDevices f g).fetch = .ok op := hfetch
    have hholds := fetch_eq_ok_iff.1 hfetch
    have hspells := Opcode.decode_eq_ok_iff.1 hdecode
    rw [hstep, step_of_decode hsame hdecode]
    exact (m.decoded op ins).executeCounted_onDevices
      (hf.imp_right fun h => h op ins hholds hspells)
      (hg.imp_right fun h => h op ins hholds hspells)

theorem avoids_of_spells {P : Instruction → Prop} {op : Opcode} {ins : Instruction}
    (hholds : m.Holds op) (hspells : op.Spells ins) (h : ¬P ins) : m.Avoids P := by
  intro op' ins' hholds' hspells'
  obtain rfl : op = op' :=
    Except.ok.inj ((fetch_eq_ok_iff.2 hholds).symm.trans (fetch_eq_ok_iff.2 hholds'))
  obtain rfl : ins = ins' := Except.ok.inj
    ((Opcode.decode_eq_ok_iff.2 hspells).symm.trans (Opcode.decode_eq_ok_iff.2 hspells'))
  exact h

theorem step_timers (h : m.Avoids Instruction.UsesTimers) : m.step.machine.timers = m.timers := by
  have hstep : (m.onDevices (fun _ => m.timers) id).step =
      m.step.map (onDevices (fun _ => m.timers) id) := step_onDevices (.inr h) (.inl rfl)
  exact congrArg (fun out => out.machine.timers) hstep

theorem step_signals (h : m.Avoids Instruction.UsesTimers) : m.step.signals = [] := by
  rcases m.step_cases with ⟨e, -, hstep⟩ | ⟨op, e, -, -, hstep⟩ | ⟨op, ins, hfetch, hdecode, hstep⟩
  · rw [hstep]
  · rw [hstep]
  · have hins := h op ins (fetch_eq_ok_iff.1 hfetch) (Opcode.decode_eq_ok_iff.1 hdecode)
    rw [hstep, executeCounted_signals]
    cases ins with
    | setSound x => exact absurd trivial hins
    | _ => rfl

/-! ## One event -/

theorem react_tick (m : Machine) :
    m.react .tick = { machine := m.onDevices (·.tick.1) id, signals := m.timers.tick.2 } := rfl

theorem react_key {e : Event} (h : e.IsKey) (m : Machine) :
    m.react e = { machine := m.onDevices id e.onKeypad } := by
  cases e with
  | press k | release | releaseKey k => rfl
  | _ => exact False.elim h

theorem react_step_onDevices (hf : f = id ∨ m.Avoids Instruction.UsesTimers)
    (hg : g = id ∨ m.Avoids Instruction.UsesKeys) :
    (m.onDevices f g).react .step =
      { m.react .step with machine := (m.react .step).machine.onDevices f g } := by
  simp only [react, step_onDevices hf hg, Outcome.map]

/-- A tick finds the timers that it would have found before the step. -/
theorem exchanges_tick (h : m.Avoids Instruction.UsesTimers) : m.Exchanges .step .tick := by
  have hstep := react_step_onDevices (f := (·.tick.1)) (.inr h) (.inl rfl)
  have hsignals : (m.react .step).signals = [] := step_signals h
  have htimers : (m.react .step).machine.timers = m.timers := step_timers h
  refine ⟨?_, ?_, ?_⟩
  · simp only [after, react_tick, hstep]
  · simp only [results, react_tick, hstep, Option.toList_none, List.nil_append, List.append_nil]
  · simp only [heard, react_tick, hstep, hsignals, htimers, List.nil_append, List.append_nil]

theorem exchanges_key (h : m.Avoids Instruction.UsesKeys) {e : Event} (he : e.IsKey) :
    m.Exchanges .step e := by
  have hstep := react_step_onDevices (g := e.onKeypad) (.inl rfl) (.inr h)
  refine ⟨?_, ?_, ?_⟩
  · simp only [after, react_key he, hstep]
  · simp only [results, react_key he, hstep, Option.toList_none, List.nil_append, List.append_nil]
  · simp only [heard, react_key he, hstep, List.nil_append, List.append_nil]

/-! ## Runs -/

theorem detached_onDevices {n : Nat} :
    (m.onDevices f g).Detached (.replicate n .step) ↔ m.Detached (.replicate n .step) := by
  induction n generalizing m with
  | zero => exact Iff.rfl
  | succ n ih =>
    refine and_congr_right fun havoids => ?_
    have htimers : m.Avoids Instruction.UsesTimers := (havoids rfl).1
    have hkeys : m.Avoids Instruction.UsesKeys := (havoids rfl).2
    rw [react_step_onDevices (.inr htimers) (.inr hkeys)]
    exact ih

theorem after_onDevices {n : Nat} (h : m.Detached (.replicate n .step)) :
    (m.onDevices f g).after (.replicate n .step) =
      (m.after (.replicate n .step)).onDevices f g := by
  induction n generalizing m with
  | zero => rfl
  | succ n ih =>
    obtain ⟨htimers, hkeys⟩ := h.1 rfl
    simp only [List.replicate_succ, after, react_step_onDevices (.inr htimers) (.inr hkeys)]
    exact ih h.2

theorem results_onDevices {n : Nat} (h : m.Detached (.replicate n .step)) :
    (m.onDevices f g).results (.replicate n .step) = m.results (.replicate n .step) := by
  induction n generalizing m with
  | zero => rfl
  | succ n ih =>
    obtain ⟨htimers, hkeys⟩ := h.1 rfl
    simp only [List.replicate_succ, results, react_step_onDevices (.inr htimers) (.inr hkeys)]
    rw [ih h.2]

end Machine

namespace Interleaves

open Machine

variable {m : Machine} {steps ticks : Nat} {keys events : List Event}

/-- Whether the steps of a run use the devices does not depend on what comes between them. -/
theorem detached_iff (h : Interleaves steps ticks keys events) :
    m.Detached events ↔ m.Detached (.replicate steps .step) := by
  induction h generalizing m with
  | nil => exact Iff.rfl
  | step _ ih => exact and_congr_right fun _ => ih
  | tick _ ih =>
    rw [Detached, react_tick, ih, detached_onDevices]
    exact and_iff_right nofun
  | key he _ ih =>
    rw [Detached, react_key he, ih, detached_onDevices]
    exact and_iff_right fun hstep => (hstep ▸ he).elim

/-- What comes between the steps of a detached run gathers in the devices. -/
theorem gathers (h : Interleaves steps ticks keys events)
    (hdetached : m.Detached (.replicate steps .step)) :
    m.after events =
        (m.after (.replicate steps .step)).onDevices (·.afterTicks ticks) (·.afterEvents keys) ∧
      m.results events = m.results (.replicate steps .step) ∧
      m.heard events = m.timers.signalsOf ticks := by
  induction h generalizing m with
  | nil => exact ⟨rfl, rfl, rfl⟩
  | step _ ih =>
    have htimers : m.Avoids Instruction.UsesTimers := (hdetached.1 rfl).1
    obtain ⟨hafter, hresults, hheard⟩ := ih hdetached.2
    refine ⟨hafter, congrArg (_ ++ ·) hresults, ?_⟩
    rw [heard, hheard, ← step_timers htimers]
    exact congrArg (· ++ _) (step_signals htimers)
  | tick _ ih =>
    obtain ⟨hafter, hresults, hheard⟩ := ih (detached_onDevices.2 hdetached)
    simp only [after, results, heard, react_tick]
    -- The tick comes before the run, which is the same on the devices after it.
    refine ⟨hafter.trans ?_, hresults.trans (results_onDevices hdetached), congrArg _ hheard⟩
    rw [after_onDevices hdetached]
    rfl
  | key he _ ih =>
    obtain ⟨hafter, hresults, hheard⟩ := ih (detached_onDevices.2 hdetached)
    simp only [after, results, heard, react_key he]
    refine ⟨hafter.trans ?_, hresults.trans (results_onDevices hdetached), hheard⟩
    rw [after_onDevices hdetached]
    rfl

end Interleaves

namespace Machine

variable {m : Machine}

/-- **Steps can be exchanged with what happens to devices they do not use.** A step that does not
use the timers can be exchanged with a tick, one that does not use the keypad with a key event.
When no step of a run uses either, all ways to place its ticks and key events are the same. -/
theorem steps_exchange_with_devices (m : Machine) :
    (m.Avoids Instruction.UsesTimers → m.Exchanges .step .tick) ∧
      (m.Avoids Instruction.UsesKeys → ∀ e : Event, e.IsKey → m.Exchanges .step e) ∧
      ∀ {steps ticks : Nat} {keys events events' : List Event},
        Interleaves steps ticks keys events → Interleaves steps ticks keys events' →
        m.Detached events →
          m.after events' = m.after events ∧ m.results events' = m.results events ∧
            m.heard events' = m.heard events := by
  refine ⟨exchanges_tick, fun h _ => exchanges_key h, fun hplaced hplaced' hdetached => ?_⟩
  have hsteps := hplaced.detached_iff.1 hdetached
  obtain ⟨hafter, hresults, hheard⟩ := hplaced.gathers hsteps
  obtain ⟨hafter', hresults', hheard'⟩ := hplaced'.gathers hsteps
  exact ⟨hafter'.trans hafter.symm, hresults'.trans hresults.symm, hheard'.trans hheard.symm⟩

theorem detached_step_cons {events : List Event} (htimers : m.Avoids Instruction.UsesTimers)
    (hkeys : m.Avoids Instruction.UsesKeys) (h : m.step.machine.Detached events) :
    m.Detached (.step :: events) :=
  ⟨fun _ => ⟨htimers, hkeys⟩, h⟩

theorem detached_inside (k : Key) (hmemory : m.memory = callingMemory) (hpc : m.pc = 0x204) :
    m.Detached [.tick, .step, .press k] := by
  have hset : (m.react .tick).machine.Holds ⟨0x6005⟩ := (holds_callingMemory hmemory).2.1 hpc
  have hspells : Opcode.Spells ⟨0x6005⟩ (.setByte .v0 5) :=
    (by decide : 0x6005 = 0x6 * 0x1000 + 0 * 0x100 + 0x05)
  refine ⟨nofun, fun _ => ?_, nofun, trivial⟩
  exact ⟨avoids_of_spells hset hspells id, avoids_of_spells hset hspells id⟩

theorem detached_calling (k : Key) : calling.Detached [.step, .tick, .step, .press k] := by
  have hcall : calling.Holds ⟨0x2204⟩ := (holds_callingMemory (m := calling) rfl).1 rfl
  obtain ⟨hmemory, hpc, -⟩ := step_of_done hcall spells_calling rfl
  exact detached_step_cons (avoids_of_spells hcall spells_calling id)
    (avoids_of_spells hcall spells_calling id) (detached_inside k hmemory hpc)

theorem steps_exchange_with_devices_calling :
    calling.Exchanges .step .tick ∧ calling.Exchanges .step (.press ⟨5⟩) ∧
      calling.after [.press ⟨5⟩, .tick, .step, .step] =
        calling.after [.step, .tick, .step, .press ⟨5⟩] := by
  obtain ⟨htick, hkey, hruns⟩ := steps_exchange_with_devices calling
  have hdetached := detached_calling ⟨5⟩
  obtain ⟨htimers, hkeys⟩ := hdetached.1 rfl
  have hplaced : Interleaves 2 1 [.press ⟨5⟩] [.step, .tick, .step, .press ⟨5⟩] :=
    .step (.tick (.step (.key trivial .nil)))
  have hplaced' : Interleaves 2 1 [.press ⟨5⟩] [.press ⟨5⟩, .tick, .step, .step] :=
    .key trivial (.tick (.step (.step .nil)))
  exact ⟨htick htimers, hkey hkeys _ trivial, (hruns hplaced hplaced' hdetached).1⟩

end Machine

end Chip8
