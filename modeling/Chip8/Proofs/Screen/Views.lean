import Chip8.Proofs.SaveState.Normal
import Chip8.Proofs.Sprite

/-!
# The views of the screen

The pixels are kept column by column and shown in four ways: as columns, as lines of text, as the
list of a snapshot, which goes row by row, and as the rows of digits in a saved snapshot.

**Theorem (`views_show_the_same`).** Whatever was drawn before, all four show at every place the
pixel that is read there. Writing a pixel shows in reading exactly there, around the edges.
-/

namespace Chip8

/-- The character in a column of a row. -/
def Text.charAt (rows : List (List Char)) (x : Fin 64) (y : Fin 32) : Option Char :=
  rows[y.val]?.bind fun row => row[x.val]?

namespace Machine

/-- Every view of the screen shows this pixel in a column of a row. -/
structure Shows (m : Machine) (x : Fin 64) (y : Fin 32) (on : Bool) : Prop where
  columns : (m.screen.columns.get x).get y = on
  text : Text.charAt (Text.lines m.screen.text.toList) x y = some (if on then '#' else '.')
  captured : m.capture.screen[y.val * 64 + x.val]? = some on
  written : Text.charAt ((m.capture.payloadOf 's').splitOn ',') x y =
    some (if on then '1' else '0')

end Machine

namespace Screen

/-! ## Rows of pixels -/

theorem map_range_mul {α : Type} (f : Nat → α) (count size : Nat) :
    (List.range (count * size)).map f =
      (List.range count).flatMap fun y => (List.range size).map fun x => f (y * size + x) := by
  induction count with
  | zero => simp
  | succ count ih =>
    rw [Nat.succ_mul, List.range_add, List.map_append, ih, List.range_succ, List.flatMap_append]
    simp [Function.comp_def]

/-- A snapshot lists one row after the other. -/
theorem toList_eq_flatten_rows (s : Screen) : s.toList = s.rows.flatten := by
  have hrow (y : Fin 32) :
      (List.range 64).map (fun x => s.read (.nth (y * 64 + x))) = s.row y := by
    rw [row, ← List.map_coe_finRange_eq_range, List.map_map]
    exact List.map_congr_left fun x _ => congrArg s.read (Point.nth_index ⟨x, y⟩)
  calc s.toList
      = (List.range 32).flatMap fun y => (List.range 64).map fun x => s.read (.nth (y * 64 + x)) :=
        map_range_mul _ 32 64
    _ = (List.finRange 32).flatMap s.row := by
        have hrange : List.range 32 = (List.finRange 32).map Fin.val := rfl
        rw [hrange, List.flatMap_map]
        simp only [hrow]
    _ = s.rows.flatten := List.flatMap_def

theorem notMem_map {f : Bool → Char} {c : Char} (h : ∀ on, f on ≠ c) (row : List Bool) :
    c ∉ row.map f := by
  simp [h]

theorem charAt_rows (s : Screen) (f : Bool → Char) (x : Fin 64) (y : Fin 32) :
    Text.charAt (s.rows.map (·.map f)) x y = some (f (s.read ⟨x, y⟩)) := by
  simp [Text.charAt, rows, row]

/-! ## Each view -/

theorem get_columns (s : Screen) (x : Fin 64) (y : Fin 32) :
    (s.columns.get x).get y = s.read ⟨x, y⟩ := by
  have hcolumn : s.columns.get x = .ofFn fun y => s.read ⟨x, y⟩ := Vector.getElem_ofFn x.isLt
  rw [hcolumn]
  exact Vector.getElem_ofFn y.isLt

theorem lines_text (s : Screen) :
    Text.lines s.text.toList = s.rows.map (·.map fun on => if on then '#' else '.') := by
  have htext : s.text.toList =
      (s.rows.map (·.map fun on => if on then '#' else '.')).flatMap (· ++ ['\n']) := by
    simp [text, lines, rowText, String.toList_join, List.flatMap_map]
  rw [htext]
  refine Text.lines_eq_iff.2 (Text.cut_ended fun line hline => ?_)
  obtain ⟨row, -, rfl⟩ := List.mem_map.1 hline
  exact ⟨notMem_map (by decide) row, fun hlast =>
    notMem_map (by decide) row (List.mem_of_getLast? hlast)⟩

theorem getElem?_toList (s : Screen) (x : Fin 64) (y : Fin 32) :
    s.toList[y.val * 64 + x.val]? = some (s.read ⟨x, y⟩) := by
  have hlt : y.val * 64 + x.val < 2048 := by omega
  have hplace : Point.nth (y.val * 64 + x.val) = ⟨x, y⟩ := Point.nth_index ⟨x, y⟩
  simp [toList, width, height, hlt, hplace]

theorem pixelRows_toList (s : Screen) :
    SaveState.pixelRows s.toList = s.rows.map (·.map SaveState.pixelDigit) := by
  have hwidth : ∀ row ∈ s.rows, row.length = Screen.width := by
    simp [rows, row, width]
  rw [SaveState.pixelRows, toList_eq_flatten_rows, SaveState.chunks_flatten (by decide) hwidth]

end Screen

namespace Machine

theorem screen_capture (m : Machine) : m.capture.screen = m.screen.toList := by
  rw [capture]

/-! ## Saved snapshots -/

/-- The section of the screen is written as its rows, with commas between them. -/
theorem payloadOf_capture (m : Machine) :
    m.capture.payloadOf 's' =
      SaveState.commaJoin (m.screen.rows.map (·.map SaveState.pixelDigit)) := by
  have hpayload (s : SaveState) :
      s.payloadOf 's' = SaveState.commaJoin (SaveState.pixelRows s.screen) := rfl
  rw [hpayload, screen_capture, Screen.pixelRows_toList]

theorem splitOn_payload (m : Machine) :
    (m.capture.payloadOf 's').splitOn ',' = m.screen.rows.map (·.map SaveState.pixelDigit) := by
  have hrows : m.screen.rows.map (·.map SaveState.pixelDigit) ≠ [] := by
    rw [Screen.rows, ne_eq, List.map_eq_nil_iff, List.map_eq_nil_iff]
    exact List.finRange_eq_nil_iff.not.2 (by decide)
  rw [payloadOf_capture]
  refine List.splitOn_intercalate ',' (fun row hrow => ?_) hrows
  obtain ⟨pixels, -, rfl⟩ := List.mem_map.1 hrow
  exact Screen.notMem_map (by decide) pixels

/-- The section stands on a line of the saved text, whatever else the machine holds. -/
theorem section_mem_lines_text (m : Machine) :
    SaveState.sectionText 's' (m.capture.payloadOf 's') ∈ Text.lines m.capture.text.toList := by
  have hdraws : SaveState.Draws (m.capture.payloadOf 's') m.screen.toList := by
    rw [payloadOf_capture, ← Screen.pixelRows_toList]
    exact SaveState.draws_pixelRows m.screen.length_toList
  rw [SaveState.text, String.toList_ofList]
  exact m.capture.sectionText_mem_lines_print (by decide) hdraws.clean

/-! ## All views -/

theorem shows_read (m : Machine) (x : Fin 64) (y : Fin 32) :
    m.Shows x y (m.screen.read ⟨x, y⟩) where
  columns := m.screen.get_columns x y
  text := by rw [Screen.lines_text, Screen.charAt_rows]
  captured := by rw [screen_capture, Screen.getElem?_toList]
  written := by rw [splitOn_payload, Screen.charAt_rows, SaveState.pixelDigit]

end Machine

namespace Screen

theorem read_write_wrap (s : Screen) (x y : Nat) (on : Bool) (x' y' : Nat) :
    (s.write (.wrap x y) on).read (.wrap x' y') =
      if x' % 64 = x % 64 ∧ y' % 32 = y % 32 then on else s.read (.wrap x' y') := by
  have hplace : Point.wrap x y = .wrap x' y' ↔ x' % 64 = x % 64 ∧ y' % 32 = y % 32 := by
    rw [eq_comm, wrap_eq_iff]
    rfl
  simp only [read_write, hplace]

/-- **The views of the screen show the same.** What is read at a place is what all of them show
there, on whatever screen. Writing a pixel changes what is read at its place alone, around the
edges, and a snapshot gives back the pixels that were written row by row. -/
theorem views_show_the_same :
    (∀ (m : Machine) (x : Fin 64) (y : Fin 32), m.Shows x y (m.screen.read (.wrap x y))) ∧
    (∀ m : Machine, SaveState.sectionText 's' (m.capture.payloadOf 's') ∈
      Text.lines m.capture.text.toList) ∧
    (∀ (s : Screen) (x y : Nat) (on : Bool) (x' y' : Nat),
      (s.write (.wrap x y) on).read (.wrap x' y') =
        (if x' % 64 = x % 64 ∧ y' % 32 = y % 32 then on else s.read (.wrap x' y')) ∧
      ((s.write (.wrap x y) on).read (.wrap x' y') ≠ s.read (.wrap x' y') ↔
        (x' % 64 = x % 64 ∧ y' % 32 = y % 32) ∧ on ≠ s.read (.wrap x y))) ∧
    ∀ (m : Machine) (pixels : Vector Bool 2048),
      ({ m with screen := m.screen.writeAll 0 pixels.toList }).capture.screen = pixels.toList := by
  refine ⟨fun m x y => ?shows, Machine.section_mem_lines_text,
    fun s x y on x' y' => ⟨?write, ?change⟩, fun m pixels => ?snapshot⟩
  case shows =>
    have hplace : Point.wrap x y = ⟨x, y⟩ :=
      wrap_eq_iff.2 ⟨Nat.mod_eq_of_lt x.isLt, Nat.mod_eq_of_lt y.isLt⟩
    rw [hplace]
    exact m.shows_read x y
  case write => exact s.read_write_wrap x y on x' y'
  case change =>
    rw [read_write_wrap]
    split
    · next hplace =>
      rw [wrap_congr hplace.1 hplace.2]
      exact (and_iff_right hplace).symm
    · next hplace =>
      exact iff_of_false (· rfl) fun hsame => hplace hsame.1
  case snapshot =>
    rw [Machine.screen_capture]
    exact m.screen.toList_writeAll pixels.length_toList

end Screen

end Chip8
