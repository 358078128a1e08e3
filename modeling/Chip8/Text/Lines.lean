/-!
# Lines

A text is cut into lines at its newlines. A carriage return directly before a newline
belongs to the line end; any other stays in the line. Text after the last newline is a line
if there is any.
-/

namespace Chip8.Text

/-- Puts a character in front of a text that is cut into pieces; a newline starts a new
piece. -/
def addChar (c : Char) (pieces : List (List Char)) : List (List Char) :=
  if c = '\n' then [] :: pieces
  else match pieces with
    | [] => [[c]]
    | piece :: rest => (c :: piece) :: rest

/-- The pieces of a text between its newlines, at least one. -/
def pieces (text : List Char) : List (List Char) :=
  text.foldr addChar [[]]

/-- A line without a carriage return at its end. -/
def dropReturn (line : List Char) : List Char :=
  if line.getLast? = some '\r' then line.dropLast else line

def lines (text : List Char) : List (List Char) :=
  let ended := (pieces text).dropLast.map dropReturn
  match (pieces text).getLast? with
  | some (c :: rest) => ended ++ [c :: rest]
  | _ => ended

end Chip8.Text
