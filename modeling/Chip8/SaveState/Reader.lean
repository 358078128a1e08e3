import Chip8.SaveState.Printer
import Chip8.Text.Lines

/-!
# Reading save states

Reading is strict. Every line that is not empty must be one section, and each of the twelve
sections must occur exactly once, in any order, with a payload of the right shape.

**Which error.** The lines are looked at first, in order. Only when all of them are sections
with known and different tags are the payloads looked at, in the order in which they are
written. In a list the separators come first, then the number of entries, then the entries
from left to right.
-/

namespace Chip8.SaveState

/-! ## Lines -/

/-- The section tags, in the order in which payloads are read. -/
def tags : List Char :=
  ['v', 'c', 'o', 'm', 's', 'r', 'a', 'p', 'k', 'd', 't', 'i']

/-- Whether a character can be a tag: a lowercase letter. -/
def isTagChar (c : Char) : Bool :=
  'a' ≤ c && c ≤ 'z'

/-- Whether a character can stand in a payload. -/
def isPayloadChar (c : Char) : Bool :=
  c != '{' && c != '}'

/-- What follows the payload must be the closing brace and nothing else. -/
def closeSection (tag : Char) (payload rest : List Char) :
    Except SectionError (Char × List Char) :=
  match rest with
  | ['}'] => .ok (tag, payload)
  | '}' :: rest => .error (.leftover rest)
  | rest => .error (.mismatch (Text.mismatch rest ["'\x7d'"]))

/-- Reads a line as a tag and a payload in braces. -/
def readSection (line : List Char) : Except SectionError (Char × List Char) :=
  match line with
  | [] => .error (.mismatch (Text.mismatch [] ["section tag"]))
  | tag :: rest =>
    if !isTagChar tag then .error (.mismatch (Text.mismatch line ["section tag"]))
    else match rest with
      | '{' :: rest =>
        closeSection tag (rest.takeWhile isPayloadChar) (rest.dropWhile isPayloadChar)
      | rest => .error (.mismatch (Text.mismatch rest ["'\x7b'"]))

/-- The payload of the section with a tag. -/
def payload? (found : List (Char × List Char)) (tag : Char) : Option (List Char) :=
  found.lookup tag

/-- Adds the section on a line to the sections found before. -/
def addLine (found : List (Char × List Char)) (number : Nat) (line : List Char) :
    Except SaveStateError (List (Char × List Char)) :=
  if line = [] then .ok found
  else match readSection line with
    | .error e => .error (.malformed number e)
    | .ok (tag, payload) =>
      if tag ∉ tags then .error (.unknownSection tag)
      else if (payload? found tag).isSome then .error (.duplicateSection tag)
      else .ok ((tag, payload) :: found)

/-- Adds the sections on numbered lines to the sections found before. -/
def addLines (found : List (Char × List Char)) (number : Nat) :
    List (List Char) → Except SaveStateError (List (Char × List Char))
  | [] => .ok found
  | line :: rest =>
    match addLine found number line with
    | .error e => .error e
    | .ok found => addLines found (number + 1) rest

/-- The sections of a text. Lines are numbered from one, empty ones included. -/
def readSections (text : List Char) : Except SaveStateError (List (Char × List Char)) :=
  addLines [] 1 (Text.lines text)

/-! ## Entries -/

/-- A list of entries, or what stands in its place. -/
abbrev Entries := Except String (List (List Char))

/-- Puts an entry in front of the entries that follow it. -/
def consEntry (entry : List Char) : Entries → Entries
  | .ok entries => .ok (entry :: entries)
  | .error e => .error e

/-- Reads digit runs separated by commas from a text that starts with a digit. -/
def readRuns (text : List Char) : Entries :=
  match rest_eq : text.dropWhile Char.isDigit with
  | [] => .ok [text]
  | c :: rest =>
    have : rest.length < text.length := by
      have := (text.dropWhile_sublist Char.isDigit).length_le
      simp only [rest_eq, List.length_cons] at this
      omega
    if c ≠ ',' then .error (String.ofList (c :: rest))
    else if rest.head?.any Char.isDigit then
      consEntry (text.takeWhile Char.isDigit) (readRuns rest)
    else .error (Text.mismatch rest ["digit"]).message
termination_by text.length

/-- Reads a payload as digit runs separated by commas; an empty one has no entries. -/
def splitEntries (payload : List Char) : Entries :=
  if payload = [] then .ok []
  else if payload.head?.any Char.isDigit then readRuns payload
  else .error (String.ofList payload)

/-- The entries of the payload of a section. -/
def readEntries (tag : Char) (payload : List Char) :
    Except SaveStateError (List (List Char)) :=
  (splitEntries payload).mapError (.badValue tag)

/-- The number that a run of digits stands for. -/
def value (digits : List Char) : Nat :=
  Nat.ofDigitChars 10 digits 0

/-- Whether a run of digits stands for a number up to `limit`. -/
def fits (limit : Nat) (digits : List Char) : Bool :=
  value digits ≤ limit

/-- The entries as numbers up to `limit`; the first greater one is refused. -/
def readValues (tag : Char) (limit : Nat) (entries : List (List Char)) :
    Except SaveStateError (List Nat) :=
  match entries.find? (!fits limit ·) with
  | some entry => .error (.badValue tag (String.ofList entry))
  | none => .ok (entries.map value)

/-! ## Payloads -/

/-- Reads a payload as numbers up to `limit`. -/
def readList (tag : Char) (limit : Nat) (payload : List Char) :
    Except SaveStateError (List Nat) := do
  let entries ← readEntries tag payload
  readValues tag limit entries

/-- Reads a payload as exactly `count` numbers up to `limit`. -/
def readCounted (tag : Char) (limit count : Nat) (payload : List Char) :
    Except SaveStateError (Vector Nat count) := do
  let entries ← readEntries tag payload
  if h : entries.length = count then
    let _ ← readValues tag limit entries
    pure ⟨(entries.map value).toArray, by simpa using h⟩
  else throw (.wrongLength tag entries.length count)

/-- Reads a payload as one number up to `limit`. -/
def readNumber (tag : Char) (limit : Nat) (payload : List Char) :
    Except SaveStateError Nat :=
  (·[0]) <$> readCounted tag limit 1 payload

/-- Reads a payload as exactly `count` bytes. -/
def readBytes (tag : Char) (count : Nat) (payload : List Char) :
    Except SaveStateError (Vector UInt8 count) :=
  (·.map UInt8.ofNat) <$> readCounted tag 255 count payload

/-- Reads the cycle counter: a 32-bit number that the counter can reach. -/
def readCycles (payload : List Char) : Except SaveStateError Nat := do
  let n ← readNumber 'c' 4294967295 payload
  if n ≤ Machine.maxCycles then pure n else throw (.badValue 'c' (Numeral.decimalText n))

/-- Whether a character is the digit of a pixel. -/
def isPixelDigit (c : Char) : Bool :=
  c == '0' || c == '1'

def readRow (row : List Char) : Except SaveStateError (List Bool) :=
  if row.length ≠ Screen.width then .error (.wrongLength 's' row.length Screen.width)
  else if row.all isPixelDigit then .ok (row.map (· == '1'))
  else .error (.badValue 's' (String.ofList row))

def readScreen (payload : List Char) : Except SaveStateError (List Bool) := do
  let rows ← readEntries 's' payload
  if rows.length ≠ Screen.height then
    throw (.wrongLength 's' rows.length Screen.height)
  else
    let pixels ← rows.mapM readRow
    pure pixels.flatten

def readVersion (payload : List Char) : Except SaveStateError Unit :=
  if payload = Numeral.decimal version then .ok ()
  else .error (.unsupportedVersion payload)

/-! ## The whole state -/

/-- Reads the payload of the section with a tag. -/
def take (found : List (Char × List Char)) (tag : Char) :
    Except SaveStateError (List Char) :=
  match payload? found tag with
  | some payload => .ok payload
  | none => .error (.missingSection tag)

/-- Reads the payloads of the sections of a save state. -/
def ofSections (found : List (Char × List Char)) : Except SaveStateError SaveState := do
  readVersion (← take found 'v')
  let cycles ← readCycles (← take found 'c')
  let trace ← take found 'o'
  let memory ← readBytes 'm' Memory.size (← take found 'm')
  let screen ← readScreen (← take found 's')
  let registers ← readBytes 'r' 16 (← take found 'r')
  let index ← readNumber 'a' 65535 (← take found 'a')
  let pc ← readNumber 'p' 65535 (← take found 'p')
  let stack ← readList 'k' 65535 (← take found 'k')
  let delay ← readNumber 'd' 255 (← take found 'd')
  let sound ← readNumber 't' 255 (← take found 't')
  let generator ← readBytes 'i' 16 (← take found 'i')
  pure {
    cycles := cycles
    trace := String.ofList trace
    memory := memory.toList
    screen := screen
    registers := registers
    index := UInt16.ofNat index
    pc := UInt16.ofNat pc
    stack := stack.map UInt16.ofNat
    delay := UInt8.ofNat delay
    sound := UInt8.ofNat sound
    generator := generator }

def read (text : List Char) : Except SaveStateError SaveState := do
  let found ← readSections text
  ofSections found

def ofText (text : String) : Except SaveStateError SaveState :=
  read text.toList

end Chip8.SaveState
