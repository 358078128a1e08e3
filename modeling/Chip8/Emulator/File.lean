import Chip8.Emulator
import Chip8.SaveState.Reader

/-!
# Save state files

An emulator writes its machine to a file and reads it back. A file that cannot be read or
that holds no save state leaves the machine as it was. The log tells what happened.
-/

namespace Chip8

/-- Why a save state file could not be used. -/
inductive StateFileError where
  | access (cause : FileError)
  /-- The file holds no save state that fits. -/
  | refused (cause : SaveStateError)
deriving DecidableEq

namespace StateFileError

/-- The texts of the error and of its cause, outermost first. -/
def messages : StateFileError → List String
  | access e => ["could not access save state file", e.message]
  | refused e => [e.message]

/-- The text of the error without its cause. -/
def message (e : StateFileError) : String :=
  e.messages.headD ""

end StateFileError

namespace Emulator

def saveState (e : Emulator) : SaveState :=
  e.machine.capture

/-- Puts a snapshot in place of the state of the machine. -/
def loadState (e : Emulator) (s : SaveState) : Reply (Except SaveStateError Unit) :=
  let r := e.machine.restoring s
  { emulator := { e with machine := r.machine }
    notices := e.heard r.signals
    value := r.result }

/-- Puts the state that a file holds in place of the state of the machine, given what reading the
file gave. -/
def stateFrom (e : Emulator) (contents : Except FileError String) :
    Reply (Except StateFileError Unit) :=
  match contents with
  | .error error => { emulator := e, value := .error (.access error) }
  | .ok text =>
    match SaveState.ofText text with
    | .error error => { emulator := e, value := .error (.refused error) }
    | .ok s =>
      let r := e.loadState s
      { r with value := r.value.mapError .refused }

/-- What the log tells of a loaded state. -/
def loadedStateLine (path : String) : Except StateFileError Unit → Notice
  | .ok () => .line .info ("loaded state from " ++ path)
  | .error error => .line .warn ("rejected state from " ++ path ++ ": " ++ error.message)

/-- Loads the state that a file holds, given what reading it gave. -/
def loadStateFile (e : Emulator) (path : String) (contents : Except FileError String) :
    Reply (Except StateFileError Unit) :=
  let r := e.stateFrom contents
  { r with notices := r.notices ++ [loadedStateLine path r.value] }

/-- What the log tells of a saved state, given what writing it gave. -/
def savedStateFile (e : Emulator) (path : String) (written : Except FileError Unit) :
    Reply (Except StateFileError Unit) :=
  match written with
  | .ok () =>
    { emulator := e
      notices := [.line .info ("saved state to " ++ path)]
      value := .ok () }
  | .error error => { emulator := e, value := .error (.access error) }

end Emulator

end Chip8
