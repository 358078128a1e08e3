import Chip8.Proofs.Numeral
import Chip8.Proofs.Text.Lines
import Chip8.Proofs.Text.Trim
import Chip8.Text.Mismatch

/-!
# Texts on one line

A text without a newline, and what keeps it so: taking a part of it, quoting it, joining it with
others.

**Theorem (`oneLine_message`).** The message of a mismatch is on one line exactly if the character
that was found is no newline and the names of what was expected are on one line.
-/

namespace Chip8.Text

/-- The text has no newline. -/
def OneLine (text : List Char) : Prop :=
  '\n' ∉ text

instance (text : List Char) : Decidable (OneLine text) :=
  inferInstanceAs (Decidable ('\n' ∉ text))

@[simp] theorem oneLine_nil : OneLine [] := by
  simp [OneLine]

@[simp] theorem oneLine_cons {c : Char} {text : List Char} :
    OneLine (c :: text) ↔ c ≠ '\n' ∧ OneLine text := by
  rw [OneLine, List.mem_cons, not_or, ne_comm, OneLine]

@[simp] theorem oneLine_append {text rest : List Char} :
    OneLine (text ++ rest) ↔ OneLine text ∧ OneLine rest := by
  rw [OneLine, List.mem_append, not_or, OneLine, OneLine]

/-! ## Parts -/

theorem OneLine.dropWhile {text : List Char} (h : OneLine text) (p : Char → Bool) :
    OneLine (text.dropWhile p) :=
  fun hmem => h ((List.dropWhile_sublist p).subset hmem)

theorem OneLine.trimFront {text : List Char} (h : OneLine text) : OneLine (trimFront text) :=
  h.dropWhile isBlank

theorem Trims.oneLine {text core : List Char} (h : Trims text core) (htext : OneLine text) :
    OneLine core := by
  obtain ⟨-, front, back, -, -, rfl⟩ := h
  rw [oneLine_append, oneLine_append] at htext
  exact htext.1.2

theorem oneLine_of_mem_lines {text line : List Char} (h : line ∈ lines text) : OneLine line :=
  (lines_eq_iff.1 rfl).notMem_newline line h

theorem Kept.oneLine {lines kept : List (List Char)} (h : Kept lines kept)
    (hlines : ∀ line ∈ lines, OneLine line) : ∀ line ∈ kept, OneLine line := by
  induction h with
  | nil => exact nofun
  | blank _ _ ih => exact ih (List.forall_mem_cons.1 hlines).2
  | core htrims _ _ ih =>
    obtain ⟨hline, hrest⟩ := List.forall_mem_cons.1 hlines
    exact List.forall_mem_cons.2 ⟨htrims.oneLine hline, ih hrest⟩

theorem Clean.oneLine {text : List Char} (h : Clean text) : OneLine text :=
  fun hmem => (h '\n' hmem).2.2 rfl

@[simp] theorem oneLine_decimalText (n : Nat) : OneLine (Numeral.decimalText n).toList :=
  (Numeral.clean_decimalText n).oneLine

/-! ## Joined and quoted texts -/

theorem oneLine_intercalate {separator : List Char} (h : OneLine separator)
    {pieces : List (List Char)} :
    OneLine (separator.intercalate pieces) ↔ ∀ piece ∈ pieces, OneLine piece := by
  induction pieces with
  | nil => simp
  | cons piece pieces ih =>
    cases pieces with
    | nil => simp
    | cons other pieces =>
      rw [List.intercalate_cons_cons, oneLine_append, oneLine_append, and_iff_left h, ih]
      exact List.forall_mem_cons.symm

@[simp] theorem oneLine_quoted {text : List Char} :
    OneLine (quoted text).toList ↔ OneLine text := by
  simp [quoted]

/-! ## Mismatches -/

theorem oneLine_foundText {m : Mismatch} :
    OneLine m.foundText.toList ↔ ∀ c, m.found = some c → c ≠ '\n' := by
  unfold Mismatch.foundText
  split
  · next c hfound => simp [hfound]
  · next hfound => simp [hfound]

/-- **The message of a mismatch** is on one line if what it tells of is. -/
theorem oneLine_message {m : Mismatch} :
    OneLine m.message.toList ↔ (∀ c, m.found = some c → c ≠ '\n') ∧
      ∀ name ∈ m.expected, OneLine name.toList := by
  rw [Mismatch.message, String.toList_intercalate, oneLine_intercalate (by decide), List.map_cons,
    List.forall_mem_cons, oneLine_foundText]
  simp

/-- Names of what was expected bring no newline, and the found character is one of the line. -/
theorem OneLine.mismatch {text : List Char} (h : OneLine text) {expected : List String}
    (hexpected : ∀ name ∈ expected, OneLine name.toList) :
    OneLine (mismatch text expected).message.toList := by
  refine oneLine_message.2 ⟨?_, hexpected⟩
  rintro c hc rfl
  exact h (List.mem_of_mem_head? hc)

end Chip8.Text
