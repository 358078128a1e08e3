/-!
# The screen

A torus of 64 by 32 pixels. Sprites are drawn by flipping pixels: each byte is a row of
eight, its highest bit leftmost, and a row or column past an edge comes in at the other
side.

**Collision.** A drawing collides when it switches some pixel off. A sprite with more than
32 rows meets itself, so the pixels are flipped one after the other.
-/

namespace Chip8

/-- A place on the screen: column and row. -/
structure Point where
  x : Fin 64
  y : Fin 32
deriving DecidableEq

namespace Point

/-- The place at any coordinates, around the edges of the torus. -/
def wrap (x y : Nat) : Point :=
  ⟨⟨x % 64, Nat.mod_lt x (by decide)⟩, ⟨y % 32, Nat.mod_lt y (by decide)⟩⟩

/-- Where the pixel at a place is kept: the screen is kept column by column. -/
def position (p : Point) : Nat :=
  p.x * 32 + p.y

theorem position_lt (p : Point) : p.position < 2048 := by
  have hx := p.x.isLt
  have hy := p.y.isLt
  simp only [position]
  omega

/-- The place reached after `n` others when the screen is gone through row by row. -/
def nth (n : Nat) : Point :=
  wrap (n % 64) (n / 64)

end Point

/-- The pixels, column by column; `true` is on. -/
structure Screen where
  pixels : Vector Bool 2048
deriving DecidableEq

namespace Screen

def width : Nat := 64

def height : Nat := 32

def blank : Screen :=
  ⟨.replicate 2048 false⟩

/-! ## Pixels -/

def read (s : Screen) (p : Point) : Bool :=
  s.pixels.get ⟨p.position, p.position_lt⟩

/-- Switches the pixel at a place on or off. -/
def write (s : Screen) (p : Point) (on : Bool) : Screen :=
  ⟨s.pixels.set p.position on p.position_lt⟩

/-- Writes pixels one after the other row by row, from the `n`th place on. -/
def writeAll (s : Screen) (n : Nat) : List Bool → Screen
  | [] => s
  | on :: rest => (s.write (.nth n) on).writeAll (n + 1) rest

def flip (s : Screen) (p : Point) : Screen :=
  s.write p (!s.read p)

/-- Flips pixels one after the other and tells whether one was switched off. -/
def flipAll (s : Screen) : List Point → Screen × Bool
  | [] => (s, false)
  | p :: ps =>
    let hit := s.read p
    let (s', hits) := (s.flip p).flipAll ps
    (s', hit || hits)

/-! ## Sprites -/

/-- The set bits of a sprite row, counted from the highest. -/
def rowBits (row : UInt8) : List Nat :=
  (List.range 8).filter fun i => row.toNat.testBit (7 - i)

/-- The places that the set bits of a sprite fall on, row after row. -/
def spritePoints (x y : Nat) : List UInt8 → List Point
  | [] => []
  | row :: rows => (rowBits row).map (fun i => .wrap (x + i) y) ++ spritePoints x (y + 1) rows

/-- Draws a sprite with its upper left corner at given coordinates and tells whether a pixel
was switched off. -/
def draw (s : Screen) (sprite : List UInt8) (x y : Nat) : Screen × Bool :=
  s.flipAll (spritePoints x y sprite)

/-! ## Views -/

def row (s : Screen) (y : Fin 32) : List Bool :=
  (List.finRange 64).map fun x => s.read ⟨x, y⟩

def rows (s : Screen) : List (List Bool) :=
  (List.finRange 32).map s.row

/-- The pixels row by row. -/
def toList (s : Screen) : List Bool :=
  (List.range (width * height)).map fun n => s.read (.nth n)

/-- The pixels as columns of pixels. -/
def columns (s : Screen) : Vector (Vector Bool 32) 64 :=
  .ofFn fun x => .ofFn fun y => s.read ⟨x, y⟩

/-- The places that are on, column by column. -/
def lit (s : Screen) : List Point :=
  (List.finRange 64).flatMap fun x =>
    ((List.finRange 32).map fun y => Point.mk x y).filter s.read

/-- One row as `#` for on and `.` for off. -/
def rowText (row : List Bool) : String :=
  String.ofList (row.map fun on => if on then '#' else '.')

def lines (s : Screen) : List String :=
  s.rows.map rowText

/-- The whole screen as text, each row ended by a newline. -/
def text (s : Screen) : String :=
  String.join (s.lines.map (· ++ "\n"))

end Screen

end Chip8
