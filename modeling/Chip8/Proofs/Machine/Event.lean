import Chip8.Machine.Step
import Chip8.SaveState

/-!
# What happens to a machine

A machine is driven by events: it steps, the clock ticks, keys go down and up, and the host asks
it to stop, to pause or to start over. Each event changes the machine and can be heard, through
the signals of the timers, and a step also has a result.
-/

namespace Chip8

/-- Something that happens to a machine. -/
inductive Event where
  /-- One instruction is executed. -/
  | step
  /-- The clock ticks. -/
  | tick
  | press (k : Key)
  /-- Every key goes up. -/
  | release
  | releaseKey (k : Key)
  | pause
  | resume
  | stop
  | clearStop
  | reset
deriving DecidableEq

/-- What an event leads to: the machine after it, what the timers signalled and, for a step, its
result. -/
structure Reaction where
  machine : Machine
  signals : List Signal := []
  result? : Option (Except StepError Status) := none

/-- What can be seen of an event from outside. -/
structure Observation where
  signals : List Signal
  result? : Option (Except StepError Status)
  /-- The machine after the event, as it would be saved. -/
  saved : SaveState

namespace Machine

/-- What an event does to the machine. -/
def react (m : Machine) : Event → Reaction
  | .step => { machine := m.step.machine, signals := m.step.signals, result? := m.step.result }
  | .tick => { machine := m.tick.1, signals := m.tick.2 }
  | .press k => { machine := m.press k }
  | .release => { machine := m.release }
  | .releaseKey k => { machine := m.releaseKey k }
  | .pause => { machine := m.pause }
  | .resume => { machine := m.resume }
  | .stop => { machine := m.stop }
  | .clearStop => { machine := m.clearStop }
  | .reset => { machine := m.reset }

def after (m : Machine) : List Event → Machine
  | [] => m
  | e :: events => (m.react e).machine.after events

/-- What can be seen of events that happen one after the other. -/
def observe (m : Machine) : List Event → List Observation
  | [] => []
  | e :: events =>
    let r := m.react e
    ⟨r.signals, r.result?, r.machine.capture⟩ :: r.machine.observe events

end Machine

end Chip8
