import Chip8.Numeral

/-!
# Registers by name

The machine has sixteen general-purpose registers, `V0` to `VF`. `VF` doubles as the flag of
arithmetic and drawing.
-/

namespace Chip8

/-- One of the registers `V0` to `VF`. -/
structure Register where
  index : Fin 16
deriving DecidableEq

namespace Register

/-- The register `V0`, the offset of `JP V0`. -/
def v0 : Register := ⟨0⟩

/-- The register `VF`, which holds flags. -/
def vF : Register := ⟨15⟩

/-- The register selected by the lowest four bits of `n`. -/
def ofNibble (n : Nat) : Register :=
  ⟨⟨n % 16, Nat.mod_lt n (by decide)⟩⟩

/-- The indices of the registers `V0` to `x`, in order. -/
def upTo (x : Register) : List Nat :=
  List.range (x.index + 1)

/-- The name `V0` to `VF`. -/
def name (r : Register) : String :=
  "V" ++ Numeral.hexText 1 r.index

end Register

end Chip8
