/-!
# The clock

The clock ticks the timers at a fixed period. The period is always the base period divided
by the latest speed factor, and never below one millisecond. Stopping keeps the period, and
a new factor alone does not start a stopped clock. A clock with the longest period cannot
reckon its first tick, so it fails; that shows only when it is stopped.
-/

namespace Chip8

/-- A length of time. -/
structure Period where
  nanoseconds : UInt64
deriving DecidableEq

namespace Period

def ofMilliseconds (n : Nat) : Period :=
  ⟨UInt64.ofNat (n * 1000000)⟩

def ofSeconds (seconds nanoseconds : Nat) : Period :=
  ⟨UInt64.ofNat (seconds * 1000000000 + nanoseconds)⟩

/-- The shortest period a clock keeps. -/
def shortest : Period :=
  .ofMilliseconds 1

/-- The longest period that can be told. -/
def longest : Period :=
  ⟨0xFFFFFFFFFFFFFFFF⟩

/-- The period divided by a factor. The shortest period stands in for a shorter one and for
a quotient that is no finite number; a quotient that is too long is the longest period. -/
def scale (p : Period) (factor : Float) : Period :=
  let scaled := p.nanoseconds.toFloat / factor
  if scaled.isFinite && scaled > shortest.nanoseconds.toFloat then ⟨scaled.toUInt64⟩
  else shortest

def seconds (p : Period) : Nat :=
  p.nanoseconds.toNat / 1000000000

/-- The nanoseconds past the whole seconds. -/
def subseconds (p : Period) : Nat :=
  p.nanoseconds.toNat % 1000000000

end Period

/-- A clock with its base period, its present period and whether it runs. -/
structure Clock where
  base : Period
  period : Period
  running : Bool
deriving DecidableEq

namespace Clock

def start (base : Period) : Clock :=
  ⟨base, base, true⟩

/-- Whether the clock runs but has failed: an instant is a number of 64 bits, and one that
lies the longest period ahead is none. -/
def hasFailed (c : Clock) : Bool :=
  c.running && c.period == .longest

def stop (c : Clock) : Clock :=
  { c with running := false }

/-- Changes the period and leaves the clock running or stopped. -/
def setFactor (c : Clock) (factor : Float) : Clock :=
  { c with period := c.base.scale factor }

/-- Changes the period and lets the clock run. -/
def reschedule (c : Clock) (factor : Float) : Clock :=
  { c with period := c.base.scale factor, running := true }

end Clock

end Chip8
