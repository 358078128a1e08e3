import Chip8.Machine
import Chip8.Text.Mismatch

/-!
# Save states

A save state holds all of a machine but its keypad and the requests of the host. Restoring
one is all or nothing: a state whose memory or screen has the wrong size changes nothing,
any other replaces every part, without a signal from the timers.
-/

namespace Chip8

/-- A snapshot of a machine. -/
structure SaveState where
  cycles : Nat
  trace : String
  memory : List UInt8
  /-- The pixels row by row. -/
  screen : List Bool
  registers : Vector UInt8 16
  index : UInt16
  pc : UInt16
  /-- Return addresses, outermost first. -/
  stack : List UInt16
  delay : UInt8
  sound : UInt8
  /-- The state of the generator. -/
  generator : Vector UInt8 16
deriving DecidableEq

/-! ## Errors -/

/-- What is wrong with a line that should be a section. -/
inductive SectionError where
  /-- The line does not go on as a section. -/
  | mismatch (cause : Text.Mismatch)
  /-- The line goes on after its section. -/
  | leftover (rest : List Char)
deriving DecidableEq

namespace SectionError

def message : SectionError → String
  | mismatch e => e.message
  | leftover rest => "unexpected " ++ Text.quoted rest ++ " after section"

end SectionError

/-- Why a save state is refused. -/
inductive SaveStateError where
  /-- A line is not one section. -/
  | malformed (line : Nat) (cause : SectionError)
  | unknownSection (tag : Char)
  | missingSection (tag : Char)
  | duplicateSection (tag : Char)
  /-- A section has too few or too many entries. -/
  | wrongLength (tag : Char) (found expected : Nat)
  /-- A section holds something that it must not. -/
  | badValue (tag : Char) (value : String)
  /-- The state has another format version. -/
  | unsupportedVersion (version : List Char)
deriving DecidableEq

namespace SaveStateError

def message : SaveStateError → String
  | malformed line e =>
    "malformed section on line " ++ Numeral.decimalText line ++ ": " ++ e.message
  | unknownSection tag => "unknown section " ++ Text.quoted [tag]
  | missingSection tag => "missing section " ++ Text.quoted [tag]
  | duplicateSection tag => "duplicate section " ++ Text.quoted [tag]
  | wrongLength tag found expected =>
    "section " ++ Text.quoted [tag] ++ " has " ++ Numeral.decimalText found
      ++ " entries (expected " ++ Numeral.decimalText expected ++ ")"
  | badValue tag value =>
    "bad value in section " ++ Text.quoted [tag] ++ ": '" ++ value ++ "'"
  | unsupportedVersion version =>
    "unsupported save state version " ++ Text.quoted version

end SaveStateError

/-! ## Capture and restore -/

/-- What restoring leaves behind: the machine, what the timers signalled and whether the
snapshot was refused. -/
structure Restoration where
  machine : Machine
  signals : List Signal := []
  result : Except SaveStateError Unit := .ok ()

namespace Machine

def capture (m : Machine) : SaveState where
  cycles := m.cycles
  trace := m.trace
  memory := m.memory.toList
  screen := m.screen.toList
  registers := m.registers.values
  index := m.index
  pc := m.pc
  stack := m.stack.toList
  delay := m.timers.delay
  sound := m.timers.sound
  generator := m.generator.toBytes

/-- Writes over one part after the other. The sound counter is loaded, which signals nothing. -/
def overwrite (m : Machine) (memory : Memory) (s : SaveState) : Machine :=
  let m := { m with memory := memory }
  let m := m.setCycles s.cycles
  let m := { m with trace := s.trace }
  let m := { m with registers := ⟨s.registers⟩ }
  let m := { m with index := s.index }
  let m := { m with pc := s.pc }
  let m := { m with stack := .ofList s.stack }
  let m := { m with screen := m.screen.writeAll 0 s.screen }
  let m := { m with timers := m.timers.setDelay s.delay }
  let m := { m with timers := m.timers.loadSound s.sound }
  { m with generator := .ofBytes s.generator }

/-- Restores a snapshot. The sizes of its memory and its screen are looked at before anything is
written. -/
def restoring (m : Machine) (s : SaveState) : Restoration :=
  match Memory.ofList? s.memory with
  | none =>
    { machine := m, result := .error (.wrongLength 'm' s.memory.length Memory.size) }
  | some memory =>
    if s.screen.length ≠ Screen.width * Screen.height then
      { machine := m
        result := .error (.wrongLength 's' s.screen.length (Screen.width * Screen.height)) }
    else { machine := m.overwrite memory s }

/-- The machine with a snapshot in place of its own state. -/
def restore (m : Machine) (s : SaveState) : Except SaveStateError Machine :=
  (fun () => (m.restoring s).machine) <$> (m.restoring s).result

end Machine

end Chip8
