import Chip8.CommandLine.Piece
import Chip8.Decimal.Reader
import Chip8.Emulator

/-!
# Command line arguments

The program takes the name of a program file and options. An option has a value and is given
at most once, and so is the flag that shows the screen; each `-v` tells more in the log.
-/

namespace Chip8.CommandLine

/-- What the arguments ask for. -/
structure Arguments where
  program : Option String := none
  speed : Option String := none
  seconds : Option String := none
  keys : Option String := none
  loadState : Option String := none
  saveState : Option String := none
  press : Option String := none
  dumpScreen : Bool := false
  verbosity : Nat := 0
deriving DecidableEq

namespace Arguments

/-! ## From pieces -/

def get (a : Arguments) : Valued → Option String
  | .speed => a.speed
  | .seconds => a.seconds
  | .keys => a.keys
  | .loadState => a.loadState
  | .saveState => a.saveState
  | .press => a.press

def set (a : Arguments) (value : String) : Valued → Arguments
  | .speed => { a with speed := some value }
  | .seconds => { a with seconds := some value }
  | .keys => { a with keys := some value }
  | .loadState => { a with loadState := some value }
  | .saveState => { a with saveState := some value }
  | .press => { a with press := some value }

/-- The arguments with one more piece. -/
def add (a : Arguments) : Piece → Except UsageError Arguments
  | .verbose => .ok { a with verbosity := a.verbosity + 1 }
  | .dumpScreen =>
    if a.dumpScreen then .error (.repeated Flag.dumpScreen.name)
    else .ok { a with dumpScreen := true }
  | .option which none => .error (.noValue which.name)
  | .option which (some value) =>
    if (a.get which).isSome then .error (.repeated which.name) else .ok (a.set value which)
  | .program name =>
    if a.program.isSome then .error (.unexpected name) else .ok { a with program := some name }

/-- The arguments that pieces make up. -/
def ofPieces (pieces : List Piece) : Except UsageError Arguments := do
  let a ← pieces.foldlM add {}
  if a.program.isNone then throw .noProgram else pure a

/-- Reads the arguments of the program. -/
def read (arguments : List String) : Except EarlyExit Arguments := do
  let pieces ← Piece.ofArguments false arguments
  (ofPieces pieces).mapError .refused

/-! ## What they mean -/

def programFile (a : Arguments) : String :=
  a.program.getD ""

/-- The least important level that is written to the log. -/
def level (a : Arguments) : Level :=
  match a.verbosity with
  | 0 => .warn
  | 1 => .info
  | 2 => .debug
  | _ => .trace

/-- The number that an argument stands for, with a name for the argument if it is none. -/
def number (name : String) (default : Float) (value : Option String) :
    Except (List String) Float :=
  match value with
  | none => .ok default
  | some text =>
    match Decimal.read text.toList with
    | .ok x => .ok x
    | .error e => .error ["invalid " ++ name ++ " argument", e.message]

def options (a : Arguments) : Except (List String) Options := do
  let speed ← number "speed" 1 a.speed
  pure { speed := speed, traced := a.level = .trace }

/-- Seconds as whole milliseconds; what is no positive number is no time. -/
def inMilliseconds (seconds : Float) : Nat :=
  if 0 < seconds then (seconds * 1000).toUInt64.toNat else 0

/-- How long the program is to run, in milliseconds. -/
def runTime (a : Arguments) : Except (List String) Nat := do
  let seconds ← number "seconds" 5 a.seconds
  pure (inMilliseconds seconds)

end Arguments

end Chip8.CommandLine
