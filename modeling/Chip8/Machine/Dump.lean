import Chip8.Machine

/-!
# The state dump

A readable account of the machine for diagnostics. A plus sign marks a cycle counter that
has reached its limit.
-/

namespace Chip8.Machine

def dumpLines (m : Machine) : List String :=
  ["Cycles: " ++ Numeral.decimalText m.cycles ++ (if maxCycles ≤ m.cycles then "+" else ""),
    "Last: " ++ m.trace,
    m.registers.text,
    "I: " ++ Numeral.addressText m.index.toNat ++ "   PC: "
      ++ Numeral.addressText m.pc.toNat,
    "Stack: " ++ m.stack.text,
    "DT: " ++ Numeral.hexText 2 m.timers.delay.toNat ++ "   ST: "
      ++ Numeral.hexText 2 m.timers.sound.toNat]

/-- The dump as one text, without a newline at its end. -/
def dump (m : Machine) : String :=
  "\n".intercalate m.dumpLines

end Chip8.Machine
