/-!
# The random number generator

A xorshift generator of four 32-bit words. Its whole state is the four words, so a saved
state brings back the same draws. The state of four zeros would draw zeros for ever and is
replaced by a constant one wherever a state comes in.
-/

namespace Chip8

/-- The state of the generator. -/
structure Generator where
  x : UInt32
  y : UInt32
  z : UInt32
  w : UInt32
deriving DecidableEq

namespace Generator

/-- The state that stands in for four zeros. -/
def fallback : Generator :=
  ⟨0x193A6754, 0xA8A7D469, 0x97830E05, 0x113BA7BB⟩

/-- The generator seeded with four words. -/
def ofSeed (x y z w : UInt32) : Generator :=
  if x = 0 ∧ y = 0 ∧ z = 0 ∧ w = 0 then fallback else ⟨x, y, z, w⟩

/-- The state after one draw. -/
def next (g : Generator) : Generator :=
  let t := g.x ^^^ (g.x <<< 11)
  ⟨g.y, g.z, g.w, g.w ^^^ (g.w >>> 19) ^^^ (t ^^^ (t >>> 8))⟩

/-- One draw: the last word of the next state, and that state. -/
def draw (g : Generator) : UInt32 × Generator :=
  (g.next.w, g.next)

/-- One byte: the lowest eight bits of a draw. -/
def drawByte (g : Generator) : UInt8 × Generator :=
  (UInt8.ofNat (g.next.w.toNat % 256), g.next)

/-- The state after `n` draws. -/
def skip (g : Generator) : Nat → Generator
  | 0 => g
  | n + 1 => g.next.skip n

/-! ## The state as bytes -/

/-- The bytes of a word, highest first. -/
def wordBytes (w : UInt32) : Vector UInt8 4 :=
  #v[UInt8.ofNat (w.toNat / 0x1000000), UInt8.ofNat (w.toNat / 0x10000),
    UInt8.ofNat (w.toNat / 0x100), UInt8.ofNat w.toNat]

/-- The word of four bytes, highest first. -/
def ofWordBytes (a b c d : UInt8) : UInt32 :=
  UInt32.ofNat (((a.toNat * 256 + b.toNat) * 256 + c.toNat) * 256 + d.toNat)

/-- The state as sixteen bytes, each word highest byte first. -/
def toBytes (g : Generator) : Vector UInt8 16 :=
  wordBytes g.x ++ wordBytes g.y ++ wordBytes g.z ++ wordBytes g.w

/-- The generator with the state given by sixteen bytes. -/
def ofBytes (b : Vector UInt8 16) : Generator :=
  ofSeed (ofWordBytes b[0] b[1] b[2] b[3]) (ofWordBytes b[4] b[5] b[6] b[7])
    (ofWordBytes b[8] b[9] b[10] b[11]) (ofWordBytes b[12] b[13] b[14] b[15])

end Generator

end Chip8
