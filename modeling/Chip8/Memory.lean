import Chip8.Glyph
import Chip8.Numeral

/-!
# Memory

The machine has 4095 byte cells. The glyphs lie at the bottom and programs are placed at
`0x200`. Reading or writing past the end is refused with the offending address; a write of
several bytes keeps those that came before the refusal.
-/

namespace Chip8

/-- An address past the end of memory. -/
structure AddressError where
  address : Nat
  /-- The last address that has a cell. -/
  last : Nat
deriving DecidableEq

/-- The memory cells. -/
structure Memory where
  cells : Vector UInt8 4095
deriving DecidableEq

namespace Memory

def size : Nat := 4095

/-- Where programs are placed. -/
def programStart : Nat := 0x200

/-- The number of cells that a program can fill. -/
def programSize : Nat := size - programStart

/-- What is reported of an address that has no cell. -/
def outside (address : Nat) : AddressError :=
  ⟨address, size - 1⟩

/-- The memory of a fresh machine: the glyphs, and zeros above them. -/
def fresh : Memory :=
  ⟨.ofFn fun i => if h : i.val < 80 then Glyph.table[i.val] else 0⟩

/-- The memory with the given cells, if there are exactly enough of them. -/
def ofList? (cells : List UInt8) : Option Memory :=
  if h : cells.length = size then some ⟨⟨cells.toArray, by simp [h, size]⟩⟩ else none

def toList (m : Memory) : List UInt8 :=
  m.cells.toList

/-! ## Cells -/

def read (m : Memory) (address : Nat) : Except AddressError UInt8 :=
  if h : address < size then .ok m.cells[address] else .error (outside address)

/-- The bytes of `count` cells from an address on. -/
def readMany (m : Memory) (address : Nat) : Nat → Except AddressError (List UInt8)
  | 0 => .ok []
  | count + 1 => do
    let byte ← m.read address
    let rest ← m.readMany (address + 1) count
    pure (byte :: rest)

/-- The memory with a byte in a cell. -/
def set (m : Memory) (address : Nat) (byte : UInt8) (h : address < size) : Memory :=
  ⟨m.cells.set address byte h⟩

def write (m : Memory) (address : Nat) (byte : UInt8) : Except AddressError Memory :=
  if h : address < size then .ok (m.set address byte h) else .error (outside address)

/-- Stores bytes from an address on, up to the first that has no cell. -/
def writeMany (m : Memory) (address : Nat) : List UInt8 → Memory × Option AddressError
  | [] => (m, none)
  | byte :: rest =>
    if h : address < size then (m.set address byte h).writeMany (address + 1) rest
    else (m, some (outside address))

/-! ## Programs -/

/-- Zeroes the cells that programs can fill. -/
def clear (m : Memory) : Memory :=
  ⟨.ofFn fun i => if i.val < programStart then m.cells[i] else 0⟩

/-- The number of cells that a program of `length` bytes fills. -/
def loadedSize (length : Nat) : Nat :=
  min length programSize

/-- Places a program, without the bytes that do not fit. Cells past its end keep their
contents. -/
def load (m : Memory) (program : Array UInt8) : Memory :=
  ⟨.ofFn fun i =>
    if programStart ≤ i.val then program.getD (i.val - programStart) m.cells[i]
    else m.cells[i]⟩

end Memory

namespace AddressError

/-- The text of the error, with the range of valid addresses. -/
def message (e : AddressError) : String :=
  "address out of bounds: " ++ Numeral.addressText e.address ++ " (valid range 0-"
    ++ Numeral.addressText e.last ++ ")"

end AddressError

end Chip8
