import Chip8.CommandLine.Session
import Chip8.Emulator.Schedule

/-!
# The program

Runs a session in the world outside: with real files, the log on the error output and time
that passes by itself.
-/

namespace Chip8.CommandLine

/-! ## Files -/

/-- The file error that a failed operation stands for. -/
def fileError (e : IO.Error) : FileError :=
  match e with
  | .noFileOrDirectory _ _ _ => .notFound
  | .alreadyExists _ _ _ => .alreadyExists
  | .inappropriateType _ code _ => if code = 20 then .notDirectory else .isDirectory
  | e => .other (toString e)

/-- Tries an operation on files. -/
def attempt {α : Type} (action : IO α) : IO (Except FileError α) := do
  try return .ok (← action)
  catch e => return .error (fileError e)

/-- Opens a file. A folder can be opened but not read. -/
def openReal (path : String) : IO (Except FileError Source) := do
  match ← attempt (IO.FS.readBinFile path) with
  | .ok bytes => return .ok (.ok bytes)
  | .error .isDirectory => return .ok (.error .isDirectory)
  | .error e => return .error e

/-! ## Time -/

/-- The progress of a run: the emulator, what it is told and owes, and the times of its
start, of the latest batch and of the latest tick. -/
structure Progress where
  emulator : Emulator
  notices : List Notice := []
  owed : Float := 1
  began : Nat
  slept : Nat
  ticked : Nat

/-- The ticks of the clock that are due, with the time of the latest. -/
def tickDue (p : Progress) (now : Nat) : Progress :=
  match p.emulator.clock with
  | some clock =>
    let period := clock.period.nanoseconds.toNat
    let due := (now - p.ticked) / period
    let tickOnce (p : Progress) : Progress :=
      let r := p.emulator.tick
      { p with emulator := r.emulator, notices := p.notices ++ r.notices }
    { (due.repeat tickOnce p) with ticked := p.ticked + due * period }
  | none => p

/-- The most instructions between two looks at the time. -/
def longestBatch : Float := 1000

/-- Sleeps between two batches and owes what the sleep was worth. -/
def sleepReal (p : Progress) : IO Progress := do
  let wait := p.emulator.options.cycleWait
  IO.sleep wait.toUInt32
  let now ← IO.monoNanosNow
  let passed := Float.ofNat (now - p.slept) / Float.ofNat (wait * 1000000)
  return { p with owed := passed * p.emulator.speed.factor + p.owed, slept := now }

/-- Lets an emulator run, batch after batch, until its time is over or it stops. -/
partial def driveReal (log : List Notice → IO Unit) (limit : Nat) (p : Progress) :
    IO Progress := do
  let batch := if p.owed < longestBatch then p.owed else longestBatch
  let r := p.emulator.executeCycles batch
  log (p.notices ++ r.notices)
  let p := { p with emulator := r.emulator, notices := [], owed := p.owed - batch + r.value }
  let p ← if p.owed < 1 then sleepReal p else pure p
  let now ← IO.monoNanosNow
  let p := tickDue p now
  if now < limit && !p.emulator.isStopped then driveReal log limit p else return p

/-- The host of the world outside. -/
def realHost (least : Level) : Host IO where
  openFile := openReal
  writeFile path text := attempt (IO.FS.writeFile path text)
  drive e time := do
    let now ← IO.monoNanosNow
    let log (notices : List Notice) : IO Unit :=
      (notices.filterMap Notice.logLine?).forM fun line =>
        if line.level.rank ≤ least.rank then IO.eprintln line.render else pure ()
    let p ← driveReal log (now + Emulator.nextLook (Emulator.milliseconds time))
      { emulator := e, began := now, slept := now, ticked := now }
    let ended := if p.emulator.isStopped then [Emulator.driverStopped] else []
    return { emulator := p.emulator, notices := p.notices ++ ended, value := () }
  log line := IO.eprintln line.render
  print := IO.print

def randomWord : IO UInt32 :=
  return UInt32.ofNat (← IO.rand 0 0xFFFFFFFF)

end Chip8.CommandLine

open Chip8 CommandLine in
def main (arguments : List String) : IO UInt32 := do
  match Arguments.read arguments with
  | .error e =>
    IO.print e.output
    IO.eprint e.errorOutput
    return e.status.toUInt32
  | .ok a =>
    let generator := Generator.ofSeed (← randomWord) (← randomWord) (← randomWord)
      (← randomWord)
    return (← (realHost a.level).session a generator).toUInt32
