import Chip8.Proofs.SaveState.Sections

/-!
# What can be wrong with a save state

`Refused text e` says which error is reported of a text, without a word on how it is read. A text
can have many defects; what decides between them is said in layers. The first bad line decides
(`BadLine`), whatever stands in the payloads. If no line is bad, the sections are looked for in the
order in which they are written, and the first that is missing or has a bad payload decides
(`Lacking`). In a list the commas come before the number of entries, and this number comes before
the entries, of which the first bad one decides (`BadList`).
-/

namespace Chip8.SaveState

/-! ## Lines -/

def IsTag (c : Char) : Prop :=
  'a' ≤ c ∧ c ≤ 'z'

/-- The line is not one section, and this is where it goes wrong. -/
inductive Misread : List Char → SectionError → Prop
  /-- The line does not start with a tag. -/
  | tag {line : List Char} : (∀ c, line.head? = some c → ¬IsTag c) →
      Misread line (.mismatch ⟨line.head?, ["section tag"]⟩)
  /-- No brace follows the tag. -/
  | opening {tag : Char} {rest : List Char} : IsTag tag → rest.head? ≠ some '{' →
      Misread (tag :: rest) (.mismatch ⟨rest.head?, ["'\x7b'"]⟩)
  /-- The payload ends with the line or at another opening brace. -/
  | closing {tag : Char} {payload rest : List Char} : IsTag tag → Plain payload →
      rest = [] ∨ rest.head? = some '{' →
      Misread (tag :: '{' :: (payload ++ rest)) (.mismatch ⟨rest.head?, ["'\x7d'"]⟩)
  /-- The line goes on after a section. -/
  | leftover {tag : Char} {payload rest : List Char} : IsTag tag → Plain payload → rest ≠ [] →
      Misread (sectionText tag payload ++ rest) (.leftover rest)

/-- No line is bad: those that are not empty are these sections, with known and different tags. -/
def Sections (ls : List (List Char)) (found : List (Char × List Char)) : Prop :=
  Orderly found ∧ ls.filter (· ≠ []) = found.map fun p => sectionText p.1 p.2

/-- The line with this number is bad if these sections stand before it. -/
inductive BadLine (found : List (Char × List Char)) (number : Nat) :
    List Char → SaveStateError → Prop
  | malformed {line : List Char} {cause : SectionError} : line ≠ [] → Misread line cause →
      BadLine found number line (.malformed number cause)
  | unknown {tag : Char} {payload : List Char} : IsTag tag → Plain payload → tag ∉ tags →
      BadLine found number (sectionText tag payload) (.unknownSection tag)
  | duplicate {tag : Char} {payload : List Char} : tag ∈ tags → Plain payload →
      tag ∈ found.map Prod.fst →
      BadLine found number (sectionText tag payload) (.duplicateSection tag)

/-! ## Lists -/

/-- The payload consists of these entries, which are runs of digits, with commas between them. -/
def Joins (payload : List Char) (entries : List (List Char)) : Prop :=
  payload = commaJoin entries ∧ ∀ e ∈ entries, IsRun e

/-- What follows an entry is not the rest of a list; this is told of it. -/
inductive Stuck : List Char → String → Prop
  | other {c : Char} {rest : List Char} : c.isDigit = false → c ≠ ',' →
      Stuck (c :: rest) (String.ofList (c :: rest))
  /-- No digit follows a comma. -/
  | comma {rest : List Char} : rest.head?.any Char.isDigit = false →
      Stuck (',' :: rest) (Text.mismatch rest ["digit"]).message

/-- The payload is no list of runs of digits; this is told of it. -/
inductive Unlisted : List Char → String → Prop
  | start {c : Char} {rest : List Char} : c.isDigit = false →
      Unlisted (c :: rest) (String.ofList (c :: rest))
  | stuck {payload rest : List Char} {entries : List (List Char)} {told : String} :
      entries ≠ [] → Joins payload entries → Stuck rest told → Unlisted (payload ++ rest) told

/-- A payload that should have as many entries as `count?` says, none of them bad, has not. -/
inductive BadList (tag : Char) (count? : Option Nat) (Bad : List Char → SaveStateError → Prop)
    (payload : List Char) : SaveStateError → Prop
  | unlisted {told : String} : Unlisted payload told →
      BadList tag count? Bad payload (.badValue tag told)
  | length {entries : List (List Char)} {count : Nat} : Joins payload entries →
      count? = some count → entries.length ≠ count →
      BadList tag count? Bad payload (.wrongLength tag entries.length count)
  | entry {entries : List (List Char)} {e : SaveStateError} : Joins payload entries →
      (∀ count, count? = some count → entries.length = count) → FirstFault Bad entries e →
      BadList tag count? Bad payload e

/-- The entry stands for a number above the limit. -/
inductive TooLarge (tag : Char) (limit : Nat) : List Char → SaveStateError → Prop
  | mk {entry : List Char} : limit < value entry →
      TooLarge tag limit entry (.badValue tag (String.ofList entry))

/-- The row has the wrong length, or else a digit that is none of a pixel. -/
inductive BadRow : List Char → SaveStateError → Prop
  | length {row : List Char} : row.length ≠ 64 → BadRow row (.wrongLength 's' row.length 64)
  | digit {row : List Char} : row.length = 64 → (∃ c ∈ row, c ≠ '0' ∧ c ≠ '1') →
      BadRow row (.badValue 's' (String.ofList row))

/-! ## Payloads -/

/-- The sections that list numbers, each with the limit of a number and how many there are. -/
def numberSections : List (Char × Nat × Option Nat) :=
  [('c', 4294967295, some 1), ('m', 255, some 4095), ('r', 255, some 16), ('a', 65535, some 1),
    ('p', 65535, some 1), ('k', 65535, none), ('d', 255, some 1), ('t', 255, some 1),
    ('i', 255, some 16)]

/-- The payload of a section is bad. That of the trace never is. -/
inductive BadPayload (payload : List Char) : Char → SaveStateError → Prop
  | version : payload ≠ ['1'] → BadPayload payload 'v' (.unsupportedVersion payload)
  | numbers {tag : Char} {limit : Nat} {count? : Option Nat} {e : SaveStateError} :
      (tag, limit, count?) ∈ numberSections → BadList tag count? (TooLarge tag limit) payload e →
      BadPayload payload tag e
  /-- The cycle counter stops below the largest number that its section can hold. -/
  | cycles {n : Nat} : Denotes payload n → 2147483647 < n → n ≤ 4294967295 →
      BadPayload payload 'c' (.badValue 'c' (Numeral.decimalText n))
  | screen {e : SaveStateError} : BadList 's' (some 32) BadRow payload e →
      BadPayload payload 's' e

/-- The section with a tag is missing, or its payload is bad. -/
inductive Lacking (found : List (Char × List Char)) (tag : Char) : SaveStateError → Prop
  | missing : tag ∉ found.map Prod.fst → Lacking found tag (.missingSection tag)
  | payload {payload : List Char} {e : SaveStateError} : (tag, payload) ∈ found →
      BadPayload payload tag e → Lacking found tag e

/-! ## The whole text -/

/-- Of the defects of the text, this is the one that is reported. -/
inductive Refused (text : List Char) : SaveStateError → Prop
  | line {before after : List (List Char)} {line : List Char} {found : List (Char × List Char)}
      {e : SaveStateError} : Text.Cut text (before ++ line :: after) → Sections before found →
      BadLine found (before.length + 1) line e → Refused text e
  | lacking {ls : List (List Char)} {found : List (Char × List Char)} {e : SaveStateError} :
      Text.Cut text ls → Sections ls found → FirstFault (Lacking found) tags e → Refused text e

end Chip8.SaveState
