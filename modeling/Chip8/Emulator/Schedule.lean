import Chip8.Emulator.Batch

/-!
# Running for a while

What a started driver and the clock do in a given time, if sleeping takes exactly its time
and nothing else happens in between.

* **The driver** works in rounds. A round executes what is owed, sleeps, and owes what the
  sleep was worth at the present speed.
* **A key wait** adds the time until the driver asks for a key again.
* **The clock** ticks whenever its period is over, also between the instructions of a round
  and after the driver has ended.
* **The host** looks at fixed intervals whether the run is over.

Time is a number of nanoseconds.
-/

namespace Chip8.Emulator

/-! ## Lengths of time -/

def instructionTime : Nat := 2000

def milliseconds (n : Nat) : Nat :=
  n * 1000000

/-- How often a host looks whether a run is over. -/
def lookInterval : Nat := milliseconds 10

/-- The first look at an instant or after it. -/
def nextLook (instant : Nat) : Nat :=
  (instant + lookInterval - 1) / lookInterval * lookInterval

/-- How far a run has come. -/
structure Progress where
  emulator : Emulator
  /-- What the driver owes. -/
  owed : Rat := 1
  /-- The time that has passed. -/
  now : Nat := 0
  /-- When the clock ticks next. -/
  due : Nat
  /-- What the host was told, the latest first. -/
  told : List Notice := []

namespace Progress

def ofEmulator (e : Emulator) : Progress where
  emulator := e
  due := e.clock.elim 0 (·.period.nanoseconds.toNat)

/-! ## The clock -/

/-- The number of ticks up to an instant. -/
def ticksUntil (p : Progress) (instant : Nat) : Nat :=
  match p.emulator.clock with
  | none => 0
  | some clock =>
    if clock.running && p.due ≤ instant then
      (instant - p.due) / clock.period.nanoseconds.toNat + 1
    else 0

/-- The progress after a tick of the clock. -/
def tick (p : Progress) : Progress :=
  let r := p.emulator.tick
  { p with
    emulator := r.emulator
    due := p.due + p.emulator.clock.elim 0 (·.period.nanoseconds.toNat)
    told := r.notices.reverse ++ p.told }

/-- The progress at an instant, if only the clock does something until then. -/
def passUntil (p : Progress) (instant : Nat) : Progress :=
  { (p.ticksUntil instant).repeat tick p with now := instant }

/-- The progress after a length of time in which only the clock does something. -/
def pass (p : Progress) (time : Nat) : Progress :=
  p.passUntil (p.now + time)

/-! ## The driver -/

/-- The number of instructions for the next batch: what is owed, as far as time allows. -/
def batch (p : Progress) (limit : Nat) : Nat :=
  min p.owed.floor.toNat ((limit - p.now) / instructionTime)

/-- What a sleep between batches is worth. -/
def worth (speed : Speed) : Rat :=
  (Binary64.ofFloat speed.factor).value?.getD 1

/-- Executes one instruction and tells how that ended. -/
def executeOne : Progress → Progress × BatchEnd
  | ⟨e, owed, now, due, told⟩ =>
    let r := e.runBatch 1
    let p : Progress := ⟨r.emulator, owed, now, due, r.notices.reverse ++ told⟩
    (p.pass instructionTime, r.value)

/-- Executes up to `n` instructions and tells how that ended. -/
def execute : Nat → Progress → Progress × BatchEnd
  | 0, p => (p, .finished)
  | n + 1, p =>
    match p.executeOne with
    | (p, .finished) => execute n p
    | ended => ended

/-- The progress after a round of the driver. -/
def round (p : Progress) (limit : Nat) : Progress :=
  let pause := milliseconds p.emulator.options.cycleWait
  if p.emulator.isPaused then p.pass pause
  else
    let rest := p.owed - (p.owed.floor : Rat)
    let (p, ended) := execute (p.batch limit) p
    let p := { p with owed := worth p.emulator.speed + rest }
    match ended with
    | .failed => { p with told := driverStopped :: p.told }
    | .waiting => p.pass (milliseconds p.emulator.options.keyPoll + pause)
    | .finished => p.pass pause

/-- The progress after up to `rounds` rounds that begin before the time is over. -/
def rounds : Nat → Nat → Progress → Progress
  | 0, _, p => p
  | n + 1, limit, p =>
    if limit ≤ p.now || !p.emulator.isRunning then p else rounds n limit (p.round limit)

end Progress

/-- Lets a started driver run until the host sees that a number of milliseconds is over or
that the driver has ended. -/
def runFor (e : Emulator) (time : Nat) : Reply Unit :=
  let limit := nextLook (milliseconds time)
  let longest := limit / max 1 (milliseconds e.options.cycleWait) + 1
  let p := Progress.rounds longest limit (.ofEmulator e)
  let p := if p.emulator.isStopped then p.passUntil (nextLook p.now) else p
  { emulator := p.emulator, notices := p.told.reverse, value := () }

end Chip8.Emulator
