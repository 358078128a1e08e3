import Chip8.Screen

/-!
# Pixels row by row

The screen is kept column by column, and snapshots list it row by row. `nth n` is the place that
comes `n`th in a list, so writing a full list of pixels and listing the screen undo each other
(`toList_writeAll`, `writeAll_toList`), whatever the screen showed before.
-/

namespace Chip8

namespace Point

theorem position_inj {p q : Point} : p.position = q.position ↔ p = q := by
  constructor
  · intro h
    have hp := p.y.isLt
    have hq := q.y.isLt
    simp only [position] at h
    have hx : p.x = q.x := Fin.ext (by omega)
    have hy : p.y = q.y := Fin.ext (by omega)
    cases p
    cases q
    simp_all
  · rintro rfl
    rfl

theorem nth_inj {i j : Nat} (hi : i < 2048) (hj : j < 2048) : nth i = nth j ↔ i = j := by
  constructor
  · intro h
    have hx : i % 64 % 64 = j % 64 % 64 := congrArg (fun p : Point => p.x.val) h
    have hy : i / 64 % 32 = j / 64 % 32 := congrArg (fun p : Point => p.y.val) h
    omega
  · rintro rfl
    rfl

/-- The place in a column of a row comes after all rows above it. -/
theorem nth_index (p : Point) : nth (p.y * 64 + p.x) = p := by
  obtain ⟨x, y⟩ := p
  have hx := x.isLt
  have hy := y.isLt
  have hcolumn : (y.val * 64 + x.val) % 64 % 64 = x.val := by omega
  have hrow : (y.val * 64 + x.val) / 64 % 32 = y.val := by omega
  rw [nth, wrap, Point.mk.injEq]
  exact ⟨Fin.ext hcolumn, Fin.ext hrow⟩

theorem exists_nth (p : Point) : ∃ i < 2048, nth i = p := by
  have hx := p.x.isLt
  have hy := p.y.isLt
  exact ⟨p.y * 64 + p.x, by omega, p.nth_index⟩

end Point

namespace Screen

theorem read_eq_getElem (s : Screen) {p : Point} {i : Nat} (hi : i < 2048)
    (h : p.position = i) : s.read p = s.pixels[i] := by
  subst h
  rfl

theorem read_write (s : Screen) (p q : Point) (on : Bool) :
    (s.write p on).read q = if p = q then on else s.read q := by
  have hq := q.position_lt
  rw [read_eq_getElem _ hq rfl, read_eq_getElem _ hq rfl, write, Vector.getElem_set]
  simp only [Point.position_inj]

theorem ext_read {s s' : Screen} (h : ∀ p, s.read p = s'.read p) : s = s' := by
  have hpixels : s.pixels = s'.pixels := by
    apply Vector.ext
    intro i hi
    have hx : i / 32 < 64 := by omega
    have hplace : (Point.mk ⟨i / 32, hx⟩ ⟨i % 32, Nat.mod_lt i (by decide)⟩).position = i := by
      simp only [Point.position]
      omega
    rw [← s.read_eq_getElem hi hplace, ← s'.read_eq_getElem hi hplace]
    exact h _
  cases s
  cases s'
  exact congrArg Screen.mk hpixels

theorem read_writeAll {s : Screen} {n i : Nat} {pixels : List Bool}
    (hn : n + pixels.length ≤ 2048) (hi : i < 2048) :
    (s.writeAll n pixels).read (.nth i) =
      if n ≤ i then pixels.getD (i - n) (s.read (.nth i)) else s.read (.nth i) := by
  induction pixels generalizing s n with
  | nil => simp [writeAll]
  | cons on rest ih =>
    rw [List.length_cons] at hn
    rw [writeAll, ih (by omega), read_write]
    rcases Nat.lt_trichotomy i n with hlt | rfl | hgt
    · have hne : ¬Point.nth n = Point.nth i := by
        rw [Point.nth_inj (by omega) hi]
        omega
      rw [if_neg (by omega), if_neg hne, if_neg (by omega)]
    · rw [if_neg (by omega), if_pos rfl, if_pos (Nat.le_refl i), Nat.sub_self,
        List.getD_cons_zero]
    · have hne : ¬Point.nth n = Point.nth i := by
        rw [Point.nth_inj (by omega) hi]
        omega
      have hnext : i - n = i - (n + 1) + 1 := by omega
      rw [if_pos (by omega), if_neg hne, if_pos (by omega), hnext, List.getD_cons_succ]

@[simp] theorem length_toList (s : Screen) : s.toList.length = 2048 := by
  simp [toList, width, height]

/-- A screen over which a full list of pixels was written shows these pixels. -/
theorem toList_writeAll (s : Screen) {pixels : List Bool} (h : pixels.length = 2048) :
    (s.writeAll 0 pixels).toList = pixels := by
  apply List.ext_getElem
  · rw [length_toList, h]
  · intro i hi hpixel
    rw [length_toList] at hi
    simp only [toList, List.getElem_map, List.getElem_range]
    rw [read_writeAll (by omega) hi, if_pos (Nat.zero_le i), Nat.sub_zero,
      List.getD_eq_getElem?_getD, List.getElem?_eq_getElem hpixel, Option.getD_some]

/-- The pixels of a screen make any other screen the same. -/
theorem writeAll_toList (s target : Screen) : target.writeAll 0 s.toList = s := by
  apply ext_read
  intro p
  obtain ⟨i, hi, rfl⟩ := p.exists_nth
  have hlength : i < s.toList.length := by rwa [length_toList]
  rw [read_writeAll (by simp) hi, if_pos (Nat.zero_le i), Nat.sub_zero,
    List.getD_eq_getElem?_getD, List.getElem?_eq_getElem hlength, Option.getD_some]
  simp [toList]

end Screen

end Chip8
