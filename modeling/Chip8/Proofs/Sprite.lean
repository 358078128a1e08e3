import Chip8.Proofs.Screen
import Mathlib.Algebra.BigOperators.Fin
import Mathlib.Algebra.Group.Nat.Even
import Mathlib.Data.Fintype.BigOperators

/-!
# Sprites

Drawing flips the pixels under the set bits of a sprite one after the other. A tall sprite comes
around the torus and meets itself, so a pixel can be flipped many times, and a collision can be
with a pixel that the sprite itself switched on.

**Theorem (`draw_by_multiplicity`).** A pixel changes if an odd number of set bits falls on it
(`multiplicity`). The drawing collides if two or more fall on some place, or one where the screen
was on. The corner of the sprite matters only modulo the size of the screen.

The proof goes through the list of places that are flipped (`flipAll`): parity and collision are
tracked together, from one flip to the next, by how often a place is still in the list.
-/

namespace Chip8

namespace Screen

/-! ## Flipping places one after the other -/

theorem read_flip (s : Screen) (p q : Point) :
    (s.flip p).read q = if p = q then !s.read q else s.read q := by
  rw [flip, read_write]
  split
  · next h => rw [h]
  · rfl

theorem odd_count_cons {p q : Point} {places : List Point} :
    Odd ((p :: places).count q) ↔
      if p = q then ¬Odd (places.count q) else Odd (places.count q) := by
  split
  · next h => rw [h, List.count_cons_self, Nat.odd_add_one]
  · next h => rw [List.count_cons_of_ne h]

/-- A pixel changes if it is flipped an odd number of times. -/
theorem read_flipAll (s : Screen) (places : List Point) (q : Point) :
    (s.flipAll places).1.read q = (s.read q ^^ decide (Odd (places.count q))) := by
  induction places generalizing s with
  | nil => simp [flipAll]
  | cons p places ih =>
    have hrest : (s.flipAll (p :: places)).1.read q = ((s.flip p).flipAll places).1.read q := rfl
    rw [hrest, ih, read_flip]
    simp only [odd_count_cons]
    split
    · rw [decide_not, Bool.not_xor, Bool.xor_not]
    · rfl

/-- Flipping the places switches the pixel at `q` off at some point. -/
def SwitchesOff (s : Screen) (places : List Point) (q : Point) : Prop :=
  2 ≤ places.count q ∨ 1 ≤ places.count q ∧ s.read q = true

/-- The first flip switches its pixel off, or one of the others does. -/
theorem switchesOff_cons {s : Screen} {p q : Point} {places : List Point} :
    s.SwitchesOff (p :: places) q ↔
      (p = q ∧ s.read p = true) ∨ (s.flip p).SwitchesOff places q := by
  rw [SwitchesOff, SwitchesOff, read_flip]
  by_cases h : p = q
  · subst h
    rw [List.count_cons_self, if_pos rfl]
    cases hread : s.read p with
    | true =>
      have hleft : 1 ≤ places.count p + 1 := Nat.le_add_left 1 _
      exact iff_of_true (.inr ⟨hleft, rfl⟩) (.inl ⟨rfl, rfl⟩)
    | false =>
      simp only [reduceCtorEq, and_false, or_false, false_or, Bool.not_false, and_true]
      omega
  · rw [List.count_cons_of_ne h, if_neg h]
    simp [h]

/-- A collision is reported exactly if some pixel is switched off. -/
theorem flipAll_snd_iff (s : Screen) (places : List Point) :
    (s.flipAll places).2 = true ↔ ∃ q, s.SwitchesOff places q := by
  induction places generalizing s with
  | nil => simp [flipAll, SwitchesOff]
  | cons p places ih =>
    have hfirst : (s.flipAll (p :: places)).2 = (s.read p || ((s.flip p).flipAll places).2) := rfl
    rw [hfirst, Bool.or_eq_true, ih]
    simp only [switchesOff_cons, exists_or, exists_eq_left']

/-! ## Where the bits of a sprite fall -/

/-- The number of set bits of a sprite, each in its row `j` and as the `i`th from the highest,
that fall on a place when the corner of the sprite is at `(x, y)`. -/
def multiplicity (sprite : List UInt8) (x y : Nat) (p : Point) : Nat :=
  (Finset.univ.filter fun bit : Fin sprite.length × Fin 8 =>
    sprite[bit.1].toNat.testBit (7 - bit.2) ∧ (x + bit.2) % 64 = p.x ∧ (y + bit.1) % 32 = p.y).card

theorem wrap_eq_iff {x y : Nat} {p : Point} : Point.wrap x y = p ↔ x % 64 = p.x ∧ y % 32 = p.y := by
  obtain ⟨px, py⟩ := p
  simp [Point.wrap, Fin.ext_iff]

theorem multiplicity_cons (row : UInt8) (rows : List UInt8) (x y : Nat) (p : Point) :
    multiplicity (row :: rows) x y p =
      (Finset.univ.filter fun i : Fin 8 =>
        row.toNat.testBit (7 - i) ∧ Point.wrap (x + i) y = p).card +
      multiplicity rows x (y + 1) p := by
  simp only [multiplicity, Finset.card_filter, Fintype.sum_prod_type, wrap_eq_iff]
  refine (Fin.sum_univ_succ _).trans ?_
  simp only [List.length_cons, Fin.getElem_fin, Fin.val_zero, Fin.val_succ, List.getElem_cons_zero,
    List.getElem_cons_succ, Nat.add_zero, Nat.add_assoc, Nat.add_comm 1]
  rfl

theorem count_rowPoints (row : UInt8) (x y : Nat) (p : Point) :
    ((rowBits row).map fun i => Point.wrap (x + i) y).count p =
      (Finset.univ.filter fun i : Fin 8 =>
        row.toNat.testBit (7 - i) ∧ Point.wrap (x + i) y = p).card := by
  let falls (i : Nat) : Prop := row.toNat.testBit (7 - i) ∧ Point.wrap (x + i) y = p
  calc ((rowBits row).map fun i => Point.wrap (x + i) y).count p
      = (List.range 8).countP (falls ·) := by
        rw [List.count, List.countP_map, rowBits, List.countP_filter]
        congr 1
        funext i
        simp [falls, Bool.and_comm, beq_eq_decide]
    _ = ((Finset.range 8).filter falls).card := by
        rw [List.countP_eq_length_filter]
        rfl
    _ = ∑ i : Fin 8, if falls i then 1 else 0 := by
        rw [Finset.card_filter, ← Fin.sum_univ_eq_sum_range]
    _ = _ := (Finset.card_filter _ _).symm

theorem count_spritePoints (sprite : List UInt8) (x y : Nat) (p : Point) :
    (spritePoints x y sprite).count p = multiplicity sprite x y p := by
  induction sprite generalizing y with
  | nil => simp [spritePoints, multiplicity]
  | cons row rows ih =>
    rw [spritePoints, List.count_append, ih, multiplicity_cons, count_rowPoints]

theorem wrap_congr {x x' y y' : Nat} (hx : x % 64 = x' % 64) (hy : y % 32 = y' % 32) :
    Point.wrap x y = Point.wrap x' y' :=
  wrap_eq_iff.2 ⟨hx, hy⟩

theorem spritePoints_congr {x x' y y' : Nat} (hx : x % 64 = x' % 64) (hy : y % 32 = y' % 32)
    (sprite : List UInt8) : spritePoints x y sprite = spritePoints x' y' sprite := by
  induction sprite generalizing y y' with
  | nil => rfl
  | cons row rows ih =>
    have hrow : (rowBits row).map (fun i => Point.wrap (x + i) y) =
        (rowBits row).map fun i => Point.wrap (x' + i) y' := by
      refine List.map_congr_left fun i _ => wrap_congr ?_ hy
      omega
    have hrows : spritePoints x (y + 1) rows = spritePoints x' (y' + 1) rows := ih (by omega)
    rw [spritePoints, spritePoints, hrow, hrows]

/-- **What drawing shows and when it collides.** Every pixel is flipped as often as set bits of
the sprite fall on it, the collision flag tells exactly whether some flip switched its pixel off,
and the corner of the sprite can be moved around the torus. -/
theorem draw_by_multiplicity (s : Screen) (sprite : List UInt8) (x y : Nat) :
    (∀ p, (s.draw sprite x y).1.read p =
      (s.read p ^^ decide (Odd (multiplicity sprite x y p)))) ∧
    ((s.draw sprite x y).2 = true ↔ ∃ p, 2 ≤ multiplicity sprite x y p ∨
      1 ≤ multiplicity sprite x y p ∧ s.read p = true) ∧
    s.draw sprite x y = s.draw sprite (x % 64) (y % 32) := by
  simp only [← count_spritePoints]
  refine ⟨s.read_flipAll _, s.flipAll_snd_iff _, ?_⟩
  rw [draw, draw, spritePoints_congr (Nat.mod_mod x 64) (Nat.mod_mod y 32)]

/-! ## Drawing twice -/

theorem flipAll_flipAll (s : Screen) (places : List Point) :
    ((s.flipAll places).1.flipAll places).1 = s := by
  apply ext_read
  intro q
  rw [read_flipAll, read_flipAll, Bool.xor_assoc, Bool.xor_self, Bool.xor_false]

/-- If anything is flipped at all, one of the two times switches a pixel off. -/
theorem flipAll_snd_or_iff (s : Screen) (places : List Point) :
    (s.flipAll places).2 = true ∨ ((s.flipAll places).1.flipAll places).2 = true ↔
      places ≠ [] := by
  rw [flipAll_snd_iff, flipAll_snd_iff]
  constructor
  · rintro (⟨q, h⟩ | ⟨q, h⟩) rfl <;> simp [SwitchesOff] at h
  · intro h
    obtain ⟨q, hq⟩ := List.exists_mem_of_ne_nil places h
    have hcount : 1 ≤ places.count q := List.one_le_count_iff.2 hq
    by_cases hoff : s.SwitchesOff places q
    · exact .inl ⟨q, hoff⟩
    · -- The pixel is off and is flipped once, so it is on the second time.
      have hread : s.read q = false := by
        rw [SwitchesOff] at hoff
        simp_all
      have hone : places.count q = 1 := by
        rw [SwitchesOff] at hoff
        omega
      have hon : (s.flipAll places).1.read q = true := by
        rw [read_flipAll, hread, hone]
        decide
      exact .inr ⟨q, .inr ⟨hcount, hon⟩⟩

theorem rowBits_eq_nil_iff {row : UInt8} : rowBits row = [] ↔ row = 0 := by
  rw [rowBits, List.filter_eq_nil_iff]
  constructor
  · intro h
    have hbits (i : Nat) : row.toNat.testBit i = false := by
      rcases Nat.lt_or_ge i 8 with hi | hi
      · have hplace : 7 - (7 - i) = i := by omega
        have hclear := h (7 - i) (List.mem_range.2 (by omega))
        rwa [hplace, Bool.not_eq_true] at hclear
      · have hlt : row.toNat < 2 ^ i :=
          Nat.lt_of_lt_of_le row.toNat_lt (Nat.pow_le_pow_right (by decide) hi)
        exact Nat.testBit_lt_two_pow hlt
    have hzero : row.toNat = 0 :=
      Nat.eq_of_testBit_eq fun i => (hbits i).trans (Nat.zero_testBit i).symm
    exact UInt8.toNat_inj.1 hzero
  · rintro rfl i -
    simp

theorem spritePoints_eq_nil_iff {sprite : List UInt8} {x y : Nat} :
    spritePoints x y sprite = [] ↔ ∀ row ∈ sprite, row = 0 := by
  induction sprite generalizing y with
  | nil => simp [spritePoints]
  | cons row rows ih =>
    rw [spritePoints, List.append_eq_nil_iff, ih, List.map_eq_nil_iff, rowBits_eq_nil_iff,
      List.forall_mem_cons]

/-- **Drawing a sprite again takes it off the screen.** -/
theorem draw_draw (s : Screen) (sprite : List UInt8) (x y : Nat) :
    ((s.draw sprite x y).1.draw sprite x y).1 = s :=
  s.flipAll_flipAll _

/-- One of two drawings of a sprite collides, unless the sprite has no set bit. -/
theorem draw_snd_or_iff (s : Screen) (sprite : List UInt8) (x y : Nat) :
    (s.draw sprite x y).2 = true ∨ ((s.draw sprite x y).1.draw sprite x y).2 = true ↔
      ∃ row ∈ sprite, row ≠ 0 := by
  have hplaces := s.flipAll_snd_or_iff (spritePoints x y sprite)
  rw [draw, draw, hplaces, ne_eq, spritePoints_eq_nil_iff]
  simp

end Screen

end Chip8
