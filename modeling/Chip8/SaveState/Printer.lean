import Chip8.SaveState

/-!
# Writing save states

A save state is written as twelve lines. Each line is one section: a tag letter and a
payload in braces. Numbers are decimal and lists are separated by commas; the screen is a
list of rows of `0` and `1`.
-/

namespace Chip8.SaveState

def version : Nat := 1

/-- Entries separated by commas. -/
def commaJoin (entries : List (List Char)) : List Char :=
  List.intercalate [','] entries

/-- Numbers separated by commas. -/
def numbers (ns : List Nat) : List Char :=
  commaJoin (ns.map Numeral.decimal)

/-- A list cut into pieces of `size` elements; the last piece may be shorter. -/
def chunks {α : Type} (size : Nat) : List α → List (List α)
  | [] => []
  | x :: xs => (x :: xs.take (size - 1)) :: chunks size (xs.drop (size - 1))
termination_by xs => xs.length
decreasing_by simp only [List.length_drop, List.length_cons]; omega

def pixelDigit (on : Bool) : Char :=
  if on then '1' else '0'

/-- Pixels as rows of digits. -/
def pixelRows (pixels : List Bool) : List (List Char) :=
  (chunks Screen.width pixels).map (·.map pixelDigit)

/-- The sections in the order they are written: tag and payload. -/
def sections (s : SaveState) : List (Char × List Char) :=
  [('v', Numeral.decimal version),
    ('c', Numeral.decimal s.cycles),
    ('o', s.trace.toList),
    ('m', numbers (s.memory.map UInt8.toNat)),
    ('s', commaJoin (pixelRows s.screen)),
    ('r', numbers (s.registers.toList.map UInt8.toNat)),
    ('a', Numeral.decimal s.index.toNat),
    ('p', Numeral.decimal s.pc.toNat),
    ('k', numbers (s.stack.map UInt16.toNat)),
    ('d', Numeral.decimal s.delay.toNat),
    ('t', Numeral.decimal s.sound.toNat),
    ('i', numbers (s.generator.toList.map UInt8.toNat))]

def sectionLine (tag : Char) (payload : List Char) : List Char :=
  tag :: '{' :: (payload ++ ['}', '\n'])

def print (s : SaveState) : List Char :=
  s.sections.flatMap fun (tag, payload) => sectionLine tag payload

def text (s : SaveState) : String :=
  String.ofList s.print

end Chip8.SaveState
