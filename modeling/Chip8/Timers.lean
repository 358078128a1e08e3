/-!
# Timers

Two counters that count down to zero with every tick of the clock. They tell the world
outside what happens to them:

* a tick that finds a counter at zero leaves it there and signals it, every time;
* setting the sound counter is signalled too, even when it is set to zero.

Zeroing and loading a counter signal nothing.
-/

namespace Chip8

/-- What the timers tell the world outside. -/
inductive Signal where
  /-- A tick found the delay counter at zero. -/
  | delayIdle
  /-- A tick found the sound counter at zero. -/
  | soundIdle
  /-- The sound counter was set. -/
  | soundSet
deriving DecidableEq

structure Timers where
  delay : UInt8 := 0
  sound : UInt8 := 0
deriving DecidableEq

namespace Timers

def countDelay (t : Timers) : Timers × List Signal :=
  if t.delay = 0 then (t, [.delayIdle]) else ({ t with delay := t.delay - 1 }, [])

def countSound (t : Timers) : Timers × List Signal :=
  if t.sound = 0 then (t, [.soundIdle]) else ({ t with sound := t.sound - 1 }, [])

/-- One tick of the clock: the delay counter, then the sound counter. -/
def tick (t : Timers) : Timers × List Signal :=
  let (t₁, s₁) := t.countDelay
  let (t₂, s₂) := t₁.countSound
  (t₂, s₁ ++ s₂)

def setDelay (t : Timers) (value : UInt8) : Timers :=
  { t with delay := value }

/-- Sets the sound counter, which is signalled. -/
def setSound (t : Timers) (value : UInt8) : Timers × List Signal :=
  ({ t with sound := value }, [.soundSet])

/-- Puts a value into the sound counter without a signal. -/
def loadSound (t : Timers) (value : UInt8) : Timers :=
  { t with sound := value }

end Timers

end Chip8
