import Chip8.Text.Blank

/-!
# What trimming leaves

`Trims text core` says without any reading order that `core` is the text without the blanks at both
ends, and `Kept` does the same for the lines of a text of which the blank ones are dropped.

**Theorem (`trim_eq_iff`).** `Text.trim` leaves the core of a text and nothing else.
-/

namespace Chip8.Text

def Blanks (text : List Char) : Prop :=
  ∀ c ∈ text, isBlank c = true

/-- Neither end of the text is blank. -/
structure Trimmed (text : List Char) : Prop where
  head : ∀ c, text.head? = some c → isBlank c = false
  last : ∀ c, text.getLast? = some c → isBlank c = false

/-- The second text is the first without the blanks at both ends. -/
def Trims (text core : List Char) : Prop :=
  Trimmed core ∧ ∃ front back, Blanks front ∧ Blanks back ∧ text = front ++ core ++ back

/-- The second lines are the first ones trimmed, without the blank ones. -/
inductive Kept : List (List Char) → List (List Char) → Prop
  | nil : Kept [] []
  | blank {line : List Char} {lines kept : List (List Char)} :
      Blanks line → Kept lines kept → Kept (line :: lines) kept
  | core {line core : List Char} {lines kept : List (List Char)} :
      Trims line core → core ≠ [] → Kept lines kept → Kept (line :: lines) (core :: kept)

/-! ## Runs of characters -/

/-- A run of characters ends where the next one is not of its kind. -/
theorem takeWhile_append_of_stop {p : Char → Bool} {run rest : List Char}
    (hrun : ∀ c ∈ run, p c = true) (hstop : ∀ c, rest.head? = some c → p c = false) :
    (run ++ rest).takeWhile p = run ∧ (run ++ rest).dropWhile p = rest := by
  rw [List.takeWhile_append_of_pos hrun, List.dropWhile_append_of_pos hrun]
  cases rest with
  | nil => exact ⟨List.append_nil run, rfl⟩
  | cons c rest =>
    have hc : ¬p c = true := by simp [hstop c rfl]
    rw [List.takeWhile_cons_of_neg hc, List.dropWhile_cons_of_neg hc]
    exact ⟨List.append_nil run, rfl⟩

theorem head?_append_left {run : List Char} (hne : run ≠ []) (rest : List Char) :
    (run ++ rest).head? = run.head? := by
  cases run with
  | nil => exact absurd rfl hne
  | cons c run => rfl

theorem head_dropWhile {p : Char → Bool} {text : List Char} {c : Char}
    (h : (text.dropWhile p).head? = some c) : p c = false := by
  have hnot := List.head?_dropWhile_not p text
  rw [h] at hnot
  simpa using hnot

/-! ## Blanks at the front -/

theorem blanks_nil : Blanks [] :=
  fun _ hc => nomatch hc

theorem blanks_takeWhile (text : List Char) : Blanks (text.takeWhile isBlank) :=
  List.all_eq_true.1 List.all_takeWhile

theorem Blanks.reverse {text : List Char} (h : Blanks text) : Blanks text.reverse :=
  fun c hc => h c (List.mem_reverse.1 hc)

theorem trimFront_append {front : List Char} (h : Blanks front) (text : List Char) :
    trimFront (front ++ text) = trimFront text :=
  List.dropWhile_append_of_pos h

theorem trimFront_of_head {text : List Char} (h : ∀ c, text.head? = some c → isBlank c = false) :
    trimFront text = text :=
  (takeWhile_append_of_stop blanks_nil h).2

theorem trimFront_append_word {front word : List Char} (hfront : Blanks front) (hne : word ≠ [])
    (hword : ∀ c ∈ word, isBlank c = false) (rest : List Char) :
    trimFront (front ++ word ++ rest) = word ++ rest := by
  have hhead : ∀ c, (word ++ rest).head? = some c → isBlank c = false := by
    intro c hc
    rw [head?_append_left hne] at hc
    exact hword c (List.mem_of_mem_head? hc)
  rw [List.append_assoc, trimFront_append hfront, trimFront_of_head hhead]

theorem exists_blanks_append (text : List Char) :
    ∃ front, Blanks front ∧ text = front ++ trimFront text :=
  ⟨text.takeWhile isBlank, blanks_takeWhile text, List.takeWhile_append_dropWhile.symm⟩

theorem trimFront_eq_nil_iff {text : List Char} : trimFront text = [] ↔ Blanks text := by
  constructor
  · intro h
    obtain ⟨front, hfront, htext⟩ := exists_blanks_append text
    rw [htext, h, List.append_nil]
    exact hfront
  · intro h
    rw [← List.append_nil text, trimFront_append h]
    rfl

/-! ## Blanks at both ends -/

theorem trims_trim (text : List Char) : Trims text (trim text) := by
  obtain ⟨front, hfront, htext⟩ := exists_blanks_append text
  obtain ⟨back, hback, hrest⟩ := exists_blanks_append (trimFront text).reverse
  have hcore : trimFront text = trim text ++ back.reverse := by
    rw [trim, ← List.reverse_append, ← hrest, List.reverse_reverse]
  refine ⟨⟨fun c hc => ?head, fun c hc => ?last⟩, front, back.reverse, hfront, hback.reverse, ?_⟩
  case head =>
    -- The core starts the text without its front, unless it is empty.
    have hhead : (trimFront text).head? = some c := by
      rw [hcore, List.head?_append, hc, Option.some_or]
    exact head_dropWhile hhead
  case last =>
    rw [trim, List.getLast?_reverse] at hc
    exact head_dropWhile hc
  · rw [List.append_assoc, ← hcore]
    exact htext

theorem Trims.trim_eq {text core : List Char} (h : Trims text core) : trim text = core := by
  obtain ⟨hcore, front, back, hfront, hback, rfl⟩ := h
  by_cases hne : core = []
  · subst hne
    have hblanks : Blanks (front ++ [] ++ back) := by
      rw [List.append_nil]
      exact List.forall_mem_append.2 ⟨hfront, hback⟩
    rw [trim, trimFront_eq_nil_iff.2 hblanks]
    rfl
  · have hhead : ∀ c, (core ++ back).head? = some c → isBlank c = false := by
      intro c hc
      rw [head?_append_left hne] at hc
      exact hcore.head c hc
    have hlast : ∀ c, core.reverse.head? = some c → isBlank c = false := by
      intro c hc
      rw [List.head?_reverse] at hc
      exact hcore.last c hc
    rw [trim, List.append_assoc, trimFront_append hfront, trimFront_of_head hhead,
      List.reverse_append, trimFront_append hback.reverse, trimFront_of_head hlast,
      List.reverse_reverse]

/-- **What trimming leaves.** -/
theorem trim_eq_iff {text core : List Char} : trim text = core ↔ Trims text core := by
  constructor
  · rintro rfl
    exact trims_trim text
  · exact Trims.trim_eq

theorem Trimmed.trims {text : List Char} (h : Trimmed text) : Trims text text :=
  ⟨h, [], [], blanks_nil, blanks_nil, by simp⟩

theorem trims_nil_iff {text : List Char} : Trims text [] ↔ Blanks text := by
  constructor
  · rintro ⟨-, front, back, hfront, hback, rfl⟩
    rw [List.append_nil]
    exact List.forall_mem_append.2 ⟨hfront, hback⟩
  · exact fun h => ⟨⟨nofun, nofun⟩, text, [], h, blanks_nil, by simp⟩

/-! ## Lines -/

theorem kept_iff {lines kept : List (List Char)} :
    Kept lines kept ↔ (lines.map trim).filter (· ≠ []) = kept := by
  constructor
  · intro h
    induction h with
    | nil => rfl
    | blank hblanks _ ih => simp [trim_eq_iff.2 (trims_nil_iff.2 hblanks), ← ih]
    | core htrims hne _ ih => simp [trim_eq_iff.2 htrims, hne, ← ih]
  · rintro rfl
    induction lines with
    | nil => exact .nil
    | cons line lines ih =>
      by_cases hne : trim line = []
      · have hblanks : Blanks line := trims_nil_iff.1 (trim_eq_iff.1 hne)
        simpa [hne] using Kept.blank hblanks ih
      · simpa [hne] using Kept.core (trim_eq_iff.1 rfl) hne ih

theorem Kept.trimmed {lines kept : List (List Char)} (h : Kept lines kept) :
    ∀ line ∈ kept, Trimmed line := by
  induction h with
  | nil => exact nofun
  | blank _ _ ih => exact ih
  | core htrims _ _ ih => exact List.forall_mem_cons.2 ⟨htrims.1, ih⟩

theorem Kept.append {lines lines' kept kept' : List (List Char)} (h : Kept lines kept)
    (h' : Kept lines' kept') : Kept (lines ++ lines') (kept ++ kept') := by
  induction h with
  | nil => exact h'
  | blank hblanks _ ih => exact .blank hblanks ih
  | core htrims hne _ ih => exact .core htrims hne ih

theorem kept_self {lines : List (List Char)} (h : ∀ line ∈ lines, Trimmed line ∧ line ≠ []) :
    Kept lines lines := by
  induction lines with
  | nil => exact .nil
  | cons line lines ih =>
    obtain ⟨⟨htrimmed, hne⟩, hrest⟩ := List.forall_mem_cons.1 h
    exact .core htrimmed.trims hne (ih hrest)

theorem exists_kept (lines : List (List Char)) : ∃ kept, Kept lines kept :=
  ⟨_, kept_iff.2 rfl⟩

end Chip8.Text
