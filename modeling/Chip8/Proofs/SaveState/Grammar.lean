import Chip8.Proofs.SaveState.Entries
import Chip8.Proofs.Text.Lines

/-!
# What a save state may look like

`Written text s` says what it means that `text` is a written form of the state `s`, without a
word on how it is read.

* **Lines.** Of the lines of the text, those that are not empty are one section for each of the
  twelve tags, in any order. A section is a tag and a payload in braces.
* **Payloads.** What each payload says is what the state holds. Numbers may have leading zeros,
  and the trace is the payload as it stands.
-/

namespace Chip8.SaveState

/-- A section as it stands on a line. -/
def sectionText (tag : Char) (payload : List Char) : List Char :=
  tag :: '{' :: (payload ++ ['}'])

/-- A payload without braces. -/
def Plain (payload : List Char) : Prop :=
  '{' ∉ payload ∧ '}' ∉ payload

/-- The text consists of one section for every tag, with these payloads. -/
def Sectioned (text : List Char) (payload : Char → List Char) : Prop :=
  (∀ tag ∈ tags, Plain (payload tag)) ∧
    ∃ ls, Text.Cut text ls ∧
      (ls.filter (· ≠ [])).Perm (tags.map fun tag => sectionText tag (payload tag))

def IsRow (row : List Char) : Prop :=
  row.length = 64 ∧ ∀ c ∈ row, c = '0' ∨ c = '1'

/-- The payload is a list of 32 rows of digits that stand for these pixels. -/
def Draws (payload : List Char) (pixels : List Bool) : Prop :=
  ∃ rows, payload = commaJoin rows ∧ rows.length = 32 ∧ (∀ row ∈ rows, IsRow row) ∧
    (rows.map fun row => row.map (· == '1')).flatten = pixels

/-- The payloads say what the state holds. -/
structure Payloads (payload : Char → List Char) (s : SaveState) : Prop where
  version : payload 'v' = ['1']
  cycles : Denotes (payload 'c') s.cycles
  cycles_le : s.cycles ≤ 2147483647
  trace : payload 'o' = s.trace.toList
  memory : Lists (payload 'm') (s.memory.map UInt8.toNat)
  memory_length : s.memory.length = 4095
  screen : Draws (payload 's') s.screen
  registers : Lists (payload 'r') (s.registers.toList.map UInt8.toNat)
  index : Denotes (payload 'a') s.index.toNat
  pc : Denotes (payload 'p') s.pc.toNat
  stack : Lists (payload 'k') (s.stack.map UInt16.toNat)
  delay : Denotes (payload 'd') s.delay.toNat
  sound : Denotes (payload 't') s.sound.toNat
  generator : Lists (payload 'i') (s.generator.toList.map UInt8.toNat)

/-- The text is a written form of the state. -/
def Written (text : List Char) (s : SaveState) : Prop :=
  ∃ payload, Sectioned text payload ∧ Payloads payload s

end Chip8.SaveState
