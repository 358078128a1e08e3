import Chip8.Numeral

/-!
# The call stack

The return addresses of the subroutines under way. The stack has no limit; only returning
from nothing is refused.
-/

namespace Chip8

/-- The return addresses, innermost first. -/
structure CallStack where
  frames : List UInt16 := []
deriving DecidableEq

namespace CallStack

/-- Enters a subroutine that returns to an address. -/
def push (s : CallStack) (address : UInt16) : CallStack :=
  ⟨address :: s.frames⟩

/-- Leaves the innermost subroutine: its return address and the stack without it. -/
def pop? (s : CallStack) : Option (UInt16 × CallStack) :=
  match s.frames with
  | [] => none
  | address :: rest => some (address, ⟨rest⟩)

def top? (s : CallStack) : Option UInt16 :=
  s.frames.head?

def depth (s : CallStack) : Nat :=
  s.frames.length

/-- The return addresses, outermost first. -/
def toList (s : CallStack) : List UInt16 :=
  s.frames.reverse

/-- The stack of return addresses listed outermost first. -/
def ofList (frames : List UInt16) : CallStack :=
  ⟨frames.reverse⟩

/-- The return addresses in brackets, outermost first. -/
def text (s : CallStack) : String :=
  "[" ++ ", ".intercalate (s.toList.map fun a => Numeral.addressText a.toNat) ++ "]"

end CallStack

end Chip8
