/-!
# Mismatches

What a reader reports when the text does not go on as it must: the character that it found,
or the end of the text, and the things that it would have taken.
-/

namespace Chip8.Text

/-- A place where a text does not go on as it must. -/
structure Mismatch where
  /-- The character found; nothing at the end of the text. -/
  found : Option Char
  /-- Names of what could have followed. -/
  expected : List String
deriving DecidableEq

/-- The mismatch at the front of a text. -/
def mismatch (text : List Char) (expected : List String) : Mismatch :=
  ⟨text.head?, expected⟩

/-- A text between single quotes. -/
def quoted (text : List Char) : String :=
  "'" ++ String.ofList text ++ "'"

namespace Mismatch

def foundText (m : Mismatch) : String :=
  match m.found with
  | some c => "unexpected " ++ quoted [c]
  | none => "unexpected end of input"

/-- The mismatch on one line. -/
def message (m : Mismatch) : String :=
  "; ".intercalate (m.foundText :: m.expected.map ("expected " ++ ·))

end Mismatch

end Chip8.Text
