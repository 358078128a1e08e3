import Chip8.Machine.Step
import Chip8.Proofs.Memory
import Chip8.Proofs.Registers
import Chip8.Proofs.Sprite

/-!
# Drawing a sprite twice

A drawing that succeeds leaves a new screen and a new `VF`, and nothing else (`drawn`). It clears
`VF` before it reads the coordinates, so as a coordinate `VF` counts as zero (`coordinate`), and
the flag of one drawing does not move the next.

**Theorem (`draw_undoes_itself`).** A drawing that succeeds can be done again and then takes back
what it did to the screen. One of the two sets the flag, unless the sprite has no set bit.
-/

namespace Chip8.Machine

variable {m : Machine} {x y : Register} {rows : UInt8} {sprite : List UInt8}

/-- The coordinate that a drawing takes from a register. -/
def coordinate (m : Machine) (r : Register) : Nat :=
  if r = .vF then 0 else (m.reg r).toNat

/-- The screen after a drawing, and whether it collided. -/
def picture (m : Machine) (x y : Register) (sprite : List UInt8) : Screen × Bool :=
  m.screen.draw sprite (m.coordinate x) (m.coordinate y)

def drawn (m : Machine) (x y : Register) (sprite : List UInt8) : Machine :=
  { m with
    screen := (m.picture x y sprite).1
    registers := m.registers.set .vF (flag (m.picture x y sprite).2) }

theorem flag_eq_one_iff {condition : Bool} : flag condition = 1 ↔ condition = true := by
  cases condition <;> decide

/-! ## One drawing -/

/-- Once `VF` is cleared, the registers hold the coordinates. -/
theorem toNat_reg_cleared (m : Machine) (r : Register) :
    ((m.setReg .vF 0).reg r).toNat = m.coordinate r := by
  rw [reg, setReg, coordinate]
  split
  · next h => rw [h, Registers.get_set_self, UInt8.toNat_zero]
  · next h => rw [Registers.get_set_of_ne _ _ h, reg]

theorem execute_draw_of_sprite
    (h : m.memory.readMany m.index.toNat rows.toNat = .ok sprite) :
    m.execute (.draw x y rows) = { machine := m.drawn x y sprite } := by
  have hsprite : (m.setReg .vF 0).memory.readMany (m.setReg .vF 0).index.toNat rows.toNat =
      .ok sprite := h
  rw [execute, perform, drawSprite]
  simp only [hsprite, toNat_reg_cleared]
  rw [done, drawn, picture, setReg, Registers.set_set]
  rfl

theorem exists_sprite_of_executed (h : (m.execute (.draw x y rows)).result = .ok .executed) :
    ∃ sprite, m.memory.readMany m.index.toNat rows.toNat = .ok sprite := by
  cases hsprite : m.memory.readMany m.index.toNat rows.toNat with
  | ok sprite => exact ⟨sprite, rfl⟩
  | error e =>
    have hread : (m.setReg .vF 0).memory.readMany (m.setReg .vF 0).index.toNat rows.toNat =
        .error e := hsprite
    rw [execute, perform, drawSprite] at h
    simp only [hread] at h
    cases h

/-! ## Two drawings -/

/-- The flag of a drawing is no coordinate of the next. -/
theorem coordinate_drawn (m : Machine) (x y : Register) (sprite : List UInt8) (r : Register) :
    (m.drawn x y sprite).coordinate r = m.coordinate r := by
  rw [coordinate, coordinate]
  split
  · rfl
  · next h => rw [reg, drawn, Registers.get_set_of_ne _ _ h, reg]

theorem picture_drawn (m : Machine) (x y : Register) (sprite : List UInt8) :
    (m.drawn x y sprite).picture x y sprite =
      (m.picture x y sprite).1.draw sprite (m.coordinate x) (m.coordinate y) := by
  rw [picture, coordinate_drawn, coordinate_drawn]
  rfl

/-- The second drawing leaves the first screen. -/
theorem drawn_drawn (m : Machine) (x y : Register) (sprite : List UInt8) :
    (m.drawn x y sprite).drawn x y sprite =
      { m with
        registers := m.registers.set .vF (flag ((m.drawn x y sprite).picture x y sprite).2) } := by
  have hscreen : ((m.drawn x y sprite).picture x y sprite).1 = m.screen := by
    rw [picture_drawn, picture, Screen.draw_draw]
  rw [drawn, hscreen]
  simp only [drawn, Registers.set_set]

theorem drawn_flag (m : Machine) (x y : Register) (sprite : List UInt8) :
    (m.drawn x y sprite).reg .vF = flag (m.picture x y sprite).2 := by
  rw [reg, drawn, Registers.get_set_self]

/-- **A drawing undoes itself.** Done a second time, a drawing succeeds again and the machine is
what it was before both, `VF` apart. One of them set `VF` to one exactly if some row of the sprite
that stands at the index register is not zero. -/
theorem draw_undoes_itself {first second : Outcome StepError}
    (hfirst : m.execute (.draw x y rows) = first) (hexecuted : first.result = .ok .executed)
    (hsecond : first.machine.execute (.draw x y rows) = second) :
    second.result = .ok .executed ∧
      second.machine = { m with registers := m.registers.set .vF (second.machine.reg .vF) } ∧
      (first.machine.reg .vF = 1 ∨ second.machine.reg .vF = 1 ↔
        ∃ i < rows.toNat, ∃ row, m.memory.read (m.index.toNat + i) = .ok row ∧ row ≠ 0) := by
  subst hfirst
  obtain ⟨sprite, hsprite⟩ := exists_sprite_of_executed hexecuted
  rw [execute_draw_of_sprite hsprite] at hsecond ⊢
  have hagain : (m.drawn x y sprite).memory.readMany (m.drawn x y sprite).index.toNat
      rows.toNat = .ok sprite := hsprite
  rw [execute_draw_of_sprite hagain] at hsecond
  subst hsecond
  have hrows : (∃ row ∈ sprite, row ≠ 0) ↔
      ∃ i < rows.toNat, ∃ row, m.memory.read (m.index.toNat + i) = .ok row ∧ row ≠ 0 := by
    simp only [Memory.mem_readMany_iff hsprite]
    tauto
  refine ⟨rfl, ?_, ?_⟩
  · rw [drawn_flag]
    exact m.drawn_drawn x y sprite
  · rw [drawn_flag, drawn_flag, flag_eq_one_iff, flag_eq_one_iff, picture_drawn, ← hrows]
    exact Screen.draw_snd_or_iff _ _ _ _

/-- A machine that is about to draw the glyph of zero, with `VF` as its column. -/
def sketching : Machine :=
  fresh (.ofSeed 0 0 0 0)

theorem execute_sketching :
    (sketching.execute (.draw .vF .v0 5)).result = .ok .executed := by
  obtain ⟨sprite, hsprite⟩ : ∃ sprite,
      sketching.memory.readMany sketching.index.toNat (5 : UInt8).toNat = .ok sprite :=
    Memory.exists_readMany (by decide)
  rw [execute_draw_of_sprite hsprite]

theorem read_sketching : sketching.memory.read (sketching.index.toNat + 0) = .ok 0xF0 := by
  simp [sketching, fresh, Memory.read, Memory.size, Memory.fresh, Glyph.table]

theorem draw_undoes_itself_sketching :
    let first := sketching.execute (.draw .vF .v0 5)
    let second := first.machine.execute (.draw .vF .v0 5)
    first.result = .ok .executed ∧ second.result = .ok .executed ∧
      second.machine.screen = .blank ∧
        (first.machine.reg .vF = 1 ∨ second.machine.reg .vF = 1) := by
  obtain ⟨hagain, hmachine, hflag⟩ := draw_undoes_itself rfl execute_sketching rfl
  exact ⟨execute_sketching, hagain, congrArg Machine.screen hmachine,
    hflag.2 ⟨0, by decide, 0xF0, read_sketching, by decide⟩⟩

end Chip8.Machine
