import Chip8.KeyConfig.Printer
import Chip8.Text.Blank
import Chip8.Text.Lines

/-!
# Reading key configurations

Lines are trimmed and blank ones dropped. What is left must be framed by the first and the
last line of a configuration. Between them every line that is a binding counts, the last one
for each host key, and every other line is skipped, so a damaged file keeps all bindings
that can be read.
-/

namespace Chip8

/-- Why a key configuration or one of its lines is refused. -/
inductive ConfigError where
  /-- The first or the last line is missing. -/
  | frame
  /-- A line does not go on as a binding. -/
  | mismatch (cause : Text.Mismatch)
  /-- A line goes on after its binding. -/
  | leftover (rest : List Char)
  /-- The action of a binding is neither a key nor `NOP`. -/
  | unknownKey (cause : UnknownKey)
deriving DecidableEq

namespace ConfigError

/-- What a malformed text is not. -/
def malformed (detail : String) : String :=
  "not a key configuration: " ++ detail

def message : ConfigError → String
  | frame =>
    malformed ("expected " ++ Text.quoted KeyConfig.header ++ " ... "
      ++ Text.quoted KeyConfig.footer)
  | mismatch e => malformed e.message
  | leftover rest => malformed ("unexpected " ++ Text.quoted rest)
  | unknownKey e => e.message

end ConfigError

namespace KeyConfig

/-! ## Bindings -/

/-- Whether a character can stand in the name of a host key: an ASCII letter or digit, or an
underscore. -/
def isNameChar (c : Char) : Bool :=
  c.isAlphanum || c == '_'

/-- Reads the rest of a binding after the equals sign: the text of its action. -/
def readValue (text : List Char) : Except ConfigError (List Char) :=
  let text := Text.trimFront text
  let value := text.takeWhile (!Text.isBlank ·)
  let rest := Text.trimFront (text.dropWhile (!Text.isBlank ·))
  if value = [] then .error (.mismatch (Text.mismatch text ["key name"]))
  else if rest = [] then .ok value
  else .error (.leftover rest)

/-- Reads a binding as the name of the host key and the text of its action. -/
def readPair (line : List Char) : Except ConfigError (List Char × List Char) :=
  let text := Text.trimFront line
  let name := text.takeWhile isNameChar
  let rest := Text.trimFront (text.dropWhile isNameChar)
  if name = [] then
    .error (.mismatch (Text.mismatch text ["host key name", "whitespaces"]))
  else match rest with
    | '=' :: rest =>
      match readValue rest with
      | .ok value => .ok (name, value)
      | .error e => .error e
    | rest => .error (.mismatch (Text.mismatch rest ["'='"]))

def readBinding (line : List Char) : Except ConfigError Binding :=
  match readPair line with
  | .error e => .error e
  | .ok (name, value) =>
    match KeyAction.read value with
    | .ok action => .ok (String.ofList name, action)
    | .error e => .error (.unknownKey e)

/-! ## Whole configurations -/

/-- A line that was skipped, and why. -/
structure Skipped where
  line : List Char
  cause : ConfigError
deriving DecidableEq

/-- What reading gave: a configuration and the lines that were skipped. -/
structure Reading where
  config : KeyConfig
  skipped : List Skipped

/-- The trimmed lines of a text without the blank ones. -/
def trimmedLines (text : List Char) : List (List Char) :=
  ((Text.lines text).map Text.trim).filter (· ≠ [])

/-- The lines between the first and the last line of a configuration. -/
def interior? (lines : List (List Char)) : Option (List (List Char)) :=
  match lines with
  | first :: rest =>
    if first = header ∧ rest.getLast? = some footer then some rest.dropLast else none
  | [] => none

/-- The binding on a line, if it is one. -/
def binding? (line : List Char) : Option Binding :=
  (readBinding line).toOption

/-- The refusal of a line, if it is no binding. -/
def skipped? (line : List Char) : Option Skipped :=
  match readBinding line with
  | .ok _ => none
  | .error e => some ⟨line, e⟩

def read (text : List Char) : Except ConfigError Reading :=
  match interior? (trimmedLines text) with
  | none => .error .frame
  | some lines =>
    .ok ⟨ofList (lines.filterMap binding?), lines.filterMap skipped?⟩

def ofText (text : String) : Except ConfigError Reading :=
  read text.toList

end KeyConfig

end Chip8
