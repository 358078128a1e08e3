import Chip8.CommandLine.Arguments
import Chip8.Emulator.Batch
import Chip8.Emulator.File
import Chip8.KeyConfig.File

/-!
# A session

What one call of the program does: set up an emulator, load keys, a program and a state,
hold a key, let the program run, then save and show what became of it. Files, the log and
the passing of time belong to a host, so the same session runs in the world outside and in a
tree of files.
-/

namespace Chip8.CommandLine

/-- What a session needs from outside. -/
structure Host (m : Type → Type) where
  openFile : String → m (Except FileError Source)
  writeFile : String → String → m (Except FileError Unit)
  /-- Lets a started emulator run for a number of milliseconds, or until it has stopped. -/
  drive : Emulator → Nat → m (Reply Unit)
  log : LogLine → m Unit
  print : String → m Unit

/-- The texts of a failure and of its causes, outermost first. -/
abbrev Failure := List String

namespace Host

variable {m : Type → Type} [Monad m]

/-! ## Log and files -/

/-- Writes a line to the log if it matters enough. -/
def logAt (host : Host m) (least : Level) (line : LogLine) : m Unit :=
  if line.level.rank ≤ least.rank then host.log line else pure ()

/-- Writes the log lines among notices. -/
def tell (host : Host m) (least : Level) (notices : List Notice) : m Unit :=
  (notices.filterMap Notice.logLine?).forM (host.logAt least)

def readText (host : Host m) (path : String) : m (Except FileError String) := do
  match ← host.openFile path with
  | .ok source => pure source.text
  | .error e => pure (.error e)

/-- Goes on with the emulator of a reply, or stops it and fails. -/
def take {ε α : Type} (host : Host m) (least : Level) (context : ε → Failure)
    (r : Reply (Except ε α)) : ExceptT Failure m Emulator := do
  host.tell least r.notices
  match r.value with
  | .ok _ => pure r.emulator
  | .error e =>
    host.tell least r.emulator.stop.notices
    throw (context e)

/-! ## The stages of a session -/

/-- An emulator as the arguments ask for, without a program. -/
def setUp (host : Host m) (a : Arguments) (generator : Generator) :
    ExceptT Failure m (Emulator × Nat) := do
  let options ← a.options
  let runTime ← a.runTime
  match Emulator.create options generator with
  | .error e => throw [e.message]
  | .ok e =>
    let path := a.keys.getD KeyConfig.defaultPath
    let (keys, lines) := KeyConfig.load path (← host.readText path)
    host.tell a.level (lines.map .log)
    pure ({ e with keys := keys }, runTime)

def loadProgram (host : Host m) (a : Arguments) (e : Emulator) :
    ExceptT Failure m Emulator := do
  let opened ← host.openFile a.programFile
  host.take a.level Emulator.LoadError.messages (e.loadProgramFile a.programFile opened)

/-- Loads the state that was asked for. -/
def loadState (host : Host m) (a : Arguments) (e : Emulator) :
    ExceptT Failure m Emulator :=
  match a.loadState with
  | none => pure e
  | some path => do
    let contents ← host.readText path
    host.take a.level
      (fun error => ("could not load state from '" ++ path ++ "'") :: error.messages)
      (e.loadStateFile path contents)

/-- Starts the emulator, lets it run and stops it; also tells whether it had stopped by
itself. -/
def runProgram (host : Host m) (a : Arguments) (e : Emulator) (runTime : Nat) :
    ExceptT Failure m (Emulator × Bool) := do
  let e := match a.press with
    | some key => e.keyDown key
    | none => e
  let e ← host.take a.level (fun error => [error.message]) e.start
  let run ← host.drive e runTime
  host.tell a.level run.notices
  let stopped := run.emulator.stop
  host.tell a.level stopped.notices
  pure (stopped.emulator, run.emulator.isStopped)

/-- Saves the state if that was asked for. -/
def saveState (host : Host m) (a : Arguments) (e : Emulator) : ExceptT Failure m Emulator :=
  match a.saveState with
  | none => pure e
  | some path => do
    let written ← host.writeFile path e.saveState.text
    host.take a.level
      (fun error => ("could not save state to '" ++ path ++ "'") :: error.messages)
      (e.savedStateFile path written)

/-- The failure of a session whose program failed. -/
def programFailed : Failure :=
  ["the program stopped with an error (see the log for the machine state)"]

/-- All stages of a session. -/
def stages (host : Host m) (a : Arguments) (generator : Generator) :
    ExceptT Failure m Unit := do
  let (e, runTime) ← host.setUp a generator
  let e ← host.loadProgram a e
  let e ← host.loadState a e
  let (e, failed) ← host.runProgram a e runTime
  let e ← host.saveState a e
  if a.dumpScreen then host.print e.machine.screen.text
  if failed then throw programFailed

def logFailure (host : Host m) (least : Level) (failure : Failure) : m Unit := do
  (failure.take 1).forM fun text => host.logAt least ⟨.error, text⟩
  (failure.drop 1).forM fun text => host.logAt least ⟨.info, "caused by: " ++ text⟩
  host.logAt least ⟨.trace, "backtrace: "⟩

/-- Runs a session and gives the exit status. -/
def session (host : Host m) (a : Arguments) (generator : Generator) : m Nat := do
  match ← (host.stages a generator).run with
  | .ok () => pure 0
  | .error failure =>
    host.logFailure a.level failure
    pure 1

end Host

end Chip8.CommandLine
