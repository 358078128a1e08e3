import Chip8.Clock
import Chip8.Decimal.Shortest
import Chip8.FileTree
import Chip8.KeyConfig
import Chip8.Machine.Dump
import Chip8.Machine.Step
import Chip8.Notice
import Chip8.SaveState

/-!
# The emulator

A machine with what drives it: a speed, a clock for the timers and the driver that executes
instructions.

* **Stopping** is for good. A stopped machine starts again only after a reset or a new
  program, and neither of these starts the driver by itself.
* **Pausing** holds the driver and nothing else; the clock goes on.
* **A failed instruction** that the driver ran stops the machine and is written to the log
  with the state of the machine.
-/

namespace Chip8

/-! ## Speed -/

/-- Whether a number can be a speed: it is positive and finite. -/
def isSpeed (factor : Float) : Bool :=
  0 < factor && factor.isFinite

/-- A factor on the speed of instructions and timers. -/
structure Speed where
  factor : Float
  valid : isSpeed factor = true

/-- A number that can be no speed. -/
structure InvalidSpeed where
  factor : Float

namespace Speed

/-- A number as a speed, if it can be one. -/
def ofFloat (factor : Float) : Except InvalidSpeed Speed :=
  if h : isSpeed factor = true then .ok ⟨factor, h⟩ else .error ⟨factor⟩

end Speed

/-! ## The emulator and its options -/

/-- How an emulator is set up. -/
structure Options where
  speed : Float := 1
  /-- The base period of the clock, in milliseconds. -/
  timerPeriod : Nat := 17
  /-- How long the driver sleeps between batches, in milliseconds. At speed one it owes one
  instruction for that time. -/
  cycleWait : Nat := 2
  /-- How long the driver waits before it asks for a key again, in milliseconds. -/
  keyPoll : Nat := 20
  /-- Whether there is a clock. -/
  clocked : Bool := true
  audio : Audio := .silent
  /-- Whether each decoded instruction is written to the log. -/
  traced : Bool := false

namespace Options

/-- Options for trying things out: no clock and quick asking for keys. -/
def testing : Options :=
  { clocked := false, keyPoll := 1 }

/-- Options that name no speed can be used. -/
theorem isSpeed_default : isSpeed ({} : Options).speed = true := by
  decide +kernel

end Options

/-- A machine with its surroundings. -/
structure Emulator where
  machine : Machine
  speed : Speed
  clock : Option Clock
  /-- Whether the driver was started and not stopped since. -/
  driving : Bool := false
  keys : KeyConfig := .standard
  options : Options

/-- What an operation leaves behind: the emulator, what the host is told, and a result. -/
structure Reply (α : Type) where
  emulator : Emulator
  notices : List Notice := []
  value : α

/-- The machine was stopped and not reset. -/
structure NotStartable where
deriving DecidableEq

namespace NotStartable

def message (_e : NotStartable) : String :=
  "the machine was stopped and must be reset before it can run again"

end NotStartable

namespace Emulator

/-- The clock of a fresh emulator: it runs, at the base period unless the speed is not
one. -/
def freshClock (options : Options) : Option Clock :=
  if options.clocked then
    let clock := Clock.start (.ofMilliseconds options.timerPeriod)
    some (if options.speed == 1 then clock else clock.reschedule options.speed)
  else none

/-- A fresh emulator, if the speed is one. -/
def create (options : Options) (generator : Generator) : Except InvalidSpeed Emulator :=
  match Speed.ofFloat options.speed with
  | .error e => .error e
  | .ok speed =>
    .ok { machine := .fresh generator
          speed := speed
          clock := freshClock options
          options := options }

/-! ## Questions -/

def isStopped (e : Emulator) : Bool :=
  e.machine.control.stopped

def isPaused (e : Emulator) : Bool :=
  e.machine.control.paused

/-- Whether the driver executes instructions. -/
def isRunning (e : Emulator) : Bool :=
  e.driving && !e.isStopped

/-! ## Starting and stopping -/

def withMachine (e : Emulator) (f : Machine → Machine) : Emulator :=
  { e with machine := f e.machine }

/-- The log line of the driver when it ends. -/
def driverStopped : Notice :=
  .line .info "instruction driver stopped"

/-- Starts the driver, unless it was started before. A stopped machine is not started. -/
def start (e : Emulator) : Reply (Except NotStartable Unit) :=
  if e.isStopped then { emulator := e, value := .error {} }
  else if e.driving then { emulator := e, value := .ok () }
  else
    { emulator := { e with driving := true }
      notices := [.line .info "instruction driver started"]
      value := .ok () }

def pause (e : Emulator) : Emulator :=
  e.withMachine .pause

def resume (e : Emulator) : Emulator :=
  e.withMachine .resume

/-- Stops the machine and ends the driver. -/
def halt (e : Emulator) : Reply Unit :=
  { emulator := { e with machine := e.machine.stop, driving := false }
    notices := if e.isRunning then [driverStopped] else []
    value := () }

/-- What the log tells when the clock is stopped: whether it had failed. -/
def clockNotices (e : Emulator) : List Notice :=
  if e.clock.any Clock.hasFailed then [.line .error "timer clock thread panicked"] else []

/-- Stops the machine, the driver and the clock. -/
def stop (e : Emulator) : Reply Unit :=
  let r := e.halt
  { r with
    emulator := { r.emulator with clock := r.emulator.clock.map Clock.stop }
    notices := r.notices ++ e.clockNotices }

/-- A clock that runs: a stopped one starts again at the present speed. -/
def restarted (speed : Speed) (clock : Clock) : Clock :=
  if clock.running then clock else clock.reschedule speed.factor

/-- Puts the machine at the start of its program and makes it startable again. -/
def reset (e : Emulator) : Reply Unit :=
  let r := e.halt
  let e := r.emulator
  { r with
    emulator := { e with
      machine := e.machine.reset.clearStop
      clock := e.clock.map (restarted e.speed) } }

/-! ## Programs -/

/-- Why a program could not be loaded. -/
inductive LoadError where
  | notOpened (path : String) (cause : FileError)
  | notRead (path : String) (cause : FileError)
deriving DecidableEq

namespace LoadError

/-- The texts of the error and of its causes, outermost first. -/
def messages : LoadError → List String
  | .notOpened path e => ["could not open file '" ++ path ++ "'", e.message]
  | .notRead path e =>
    ["could not load program from file '" ++ path ++ "'", "could not read program data",
      e.message]

end LoadError

/-- The log line of a program of a given size. -/
def loadedLine (size : Nat) : Notice :=
  if size = 0 then .line .warn "the program is empty"
  else .line .info ("loaded " ++ Numeral.decimalText size ++ " bytes of program data")

/-- Clears the program area and resets the machine. -/
def unload (e : Emulator) : Reply Unit :=
  let r := e.halt
  let cleared := r.emulator.withMachine fun m => { m with memory := m.memory.clear }
  { cleared.reset with notices := r.notices }

/-- Replaces the program by what a source holds and tells how many bytes were placed. The
old program is gone even if the source cannot be read. -/
def loadProgram (e : Emulator) (source : Source) : Reply (Except FileError Nat) :=
  let r := e.unload
  match source with
  | .error error => { emulator := r.emulator, notices := r.notices, value := .error error }
  | .ok bytes =>
    let size := Memory.loadedSize bytes.size
    { emulator := r.emulator.withMachine fun m => { m with memory := m.memory.load bytes.data }
      notices := r.notices ++ [loadedLine size]
      value := .ok size }

/-- Replaces the program by the contents of a file, given what opening it gave. A file that
cannot be opened changes nothing. -/
def loadProgramFile (e : Emulator) (path : String) (opened : Except FileError Source) :
    Reply (Except LoadError Nat) :=
  match opened with
  | .error error => { emulator := e, value := .error (.notOpened path error) }
  | .ok source =>
    let r := e.loadProgram source
    { r with value := r.value.mapError (.notRead path) }

/-! ## Speed, keys and time -/

/-- The clock at a new speed; a stopped one stays stopped. -/
def atSpeed (factor : Float) (clock : Clock) : Clock :=
  if clock.running then clock.reschedule factor else clock.setFactor factor

/-- Changes the speed of instructions and timers. A running clock is stopped and starts
again. -/
def setSpeed (e : Emulator) (factor : Float) : Reply (Except InvalidSpeed Unit) :=
  match Speed.ofFloat factor with
  | .error error => { emulator := e, value := .error error }
  | .ok speed =>
    { emulator := { e with speed := speed, clock := e.clock.map (atSpeed factor) }
      notices := e.clockNotices ++ [.line .info ("speed set to " ++ Decimal.text factor)]
      value := .ok () }

def keyDown (e : Emulator) (key : HostKey) : Emulator :=
  e.withMachine fun m => { m with keypad := (e.keys.action key).trigger m.keypad }

/-- A host key goes up. The keypad lets go only of the key that the host key presses. -/
def keyUp (e : Emulator) (key : HostKey) : Emulator :=
  match (e.keys.action key).key? with
  | some k => e.withMachine (·.releaseKey k)
  | none => e

/-- What the host is told of signals. -/
def heard (e : Emulator) (signals : List Signal) : List Notice :=
  signals.flatMap e.options.audio.notices

def tick (e : Emulator) : Reply Unit :=
  let (machine, signals) := e.machine.tick
  { emulator := { e with machine := machine }, notices := e.heard signals, value := () }

end Emulator

namespace InvalidSpeed

def message (e : InvalidSpeed) : String :=
  "invalid speed: " ++ Decimal.text e.factor

end InvalidSpeed

end Chip8
