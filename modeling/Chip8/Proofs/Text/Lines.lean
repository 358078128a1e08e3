import Chip8.Text.Lines

/-!
# What the lines of a text are

`Cut text ls` says without any reading order that `ls` are the lines of `text`: a newline ends
a line, a carriage return directly before it belongs to the line end, and what comes after the
last newline is a line unless it is empty.

**Theorem (`lines_eq_iff`).** A text is cut into exactly the lines that `Text.lines` gives.
-/

namespace Chip8.Text

/-- The text is cut into these lines. -/
inductive Cut : List Char → List (List Char) → Prop
  | empty : Cut [] []
  /-- Text after the last newline is a line. -/
  | last {line : List Char} : line ≠ [] → '\n' ∉ line → Cut line [line]
  /-- A newline ends a line. -/
  | newline {line rest : List Char} {ls : List (List Char)} :
      '\n' ∉ line → line.getLast? ≠ some '\r' → Cut rest ls →
      Cut (line ++ '\n' :: rest) (line :: ls)
  /-- A carriage return and a newline end a line. -/
  | returned {line rest : List Char} {ls : List (List Char)} :
      '\n' ∉ line → Cut rest ls → Cut (line ++ '\r' :: '\n' :: rest) (line :: ls)

/-! ## Pieces -/

theorem pieces_newline (text : List Char) : pieces ('\n' :: text) = [] :: pieces text := by
  simp [pieces, addChar]

theorem pieces_cons {c : Char} (hc : c ≠ '\n') {text piece : List Char}
    {rest : List (List Char)} (h : pieces text = piece :: rest) :
    pieces (c :: text) = (c :: piece) :: rest := by
  rw [pieces, List.foldr_cons]
  rw [pieces] at h
  rw [h, addChar, if_neg hc]

theorem pieces_of_notMem {line : List Char} (h : '\n' ∉ line) : pieces line = [line] := by
  induction line with
  | nil => rfl
  | cons c line ih =>
    rw [List.mem_cons, not_or] at h
    exact pieces_cons (Ne.symm h.1) (ih h.2)

theorem pieces_append_newline {line : List Char} (h : '\n' ∉ line) (rest : List Char) :
    pieces (line ++ '\n' :: rest) = line :: pieces rest := by
  induction line with
  | nil => exact pieces_newline rest
  | cons c line ih =>
    rw [List.mem_cons, not_or] at h
    exact pieces_cons (Ne.symm h.1) (ih h.2)

theorem pieces_ne_nil (text : List Char) : pieces text ≠ [] := by
  cases text with
  | nil => simp [pieces]
  | cons c text =>
    rw [pieces, List.foldr_cons]
    unfold addChar
    split
    · simp
    · split <;> simp

/-! ## Lines -/

@[simp] theorem lines_nil : lines [] = [] := rfl

theorem lines_of_notMem {line : List Char} (hne : line ≠ []) (h : '\n' ∉ line) :
    lines line = [line] := by
  cases line with
  | nil => exact absurd rfl hne
  | cons c line => simp [lines, pieces_of_notMem h]

theorem lines_append_newline {line : List Char} (h : '\n' ∉ line) (rest : List Char) :
    lines (line ++ '\n' :: rest) = dropReturn line :: lines rest := by
  obtain ⟨piece, others, hp⟩ := List.exists_cons_of_ne_nil (pieces_ne_nil rest)
  have hpieces : pieces (line ++ '\n' :: rest) = line :: piece :: others := by
    rw [pieces_append_newline h, hp]
  simp only [lines, hpieces, hp, List.dropLast_cons_cons, List.map_cons,
    List.getLast?_cons_cons]
  split <;> rfl

theorem dropReturn_of_ne {line : List Char} (h : line.getLast? ≠ some '\r') :
    dropReturn line = line := by
  rw [dropReturn, if_neg h]

@[simp] theorem dropReturn_append (line : List Char) : dropReturn (line ++ ['\r']) = line := by
  simp [dropReturn]

/-- A carriage return directly before the first newline is dropped. -/
theorem lines_append_return {line : List Char} (h : '\n' ∉ line) (rest : List Char) :
    lines (line ++ '\r' :: '\n' :: rest) = line :: lines rest := by
  have hline : '\n' ∉ line ++ ['\r'] := by simp [h]
  rw [List.append_cons, lines_append_newline hline, dropReturn_append]

/-! ## Both directions -/

theorem Cut.notMem_newline {text : List Char} {ls : List (List Char)} (h : Cut text ls) :
    ∀ line ∈ ls, '\n' ∉ line := by
  induction h with
  | empty => simp
  | last _ hline => simpa using hline
  | newline hline _ _ ih => exact List.forall_mem_cons.2 ⟨hline, ih⟩
  | returned hline _ ih => exact List.forall_mem_cons.2 ⟨hline, ih⟩

theorem Cut.lines_eq {text : List Char} {ls : List (List Char)} (h : Cut text ls) :
    lines text = ls := by
  induction h with
  | empty => rfl
  | last hne hline => exact lines_of_notMem hne hline
  | newline hline hend _ ih => rw [lines_append_newline hline, dropReturn_of_ne hend, ih]
  | returned hline _ ih => rw [lines_append_return hline, ih]

theorem Cut.cons {line rest : List Char} {ls : List (List Char)} (hline : '\n' ∉ line)
    (h : Cut rest ls) : Cut (line ++ '\n' :: rest) (dropReturn line :: ls) := by
  by_cases hend : line.getLast? = some '\r'
  · obtain ⟨front, rfl⟩ := List.getLast?_eq_some_iff.1 hend
    rw [dropReturn_append, List.append_assoc]
    exact .returned (by simp_all) h
  · rw [dropReturn_of_ne hend]
    exact .newline hline hend h

theorem cut_lines (text : List Char) : Cut text (lines text) := by
  -- On the length: what follows the first newline is a shorter text.
  induction hn : text.length using Nat.strongRecOn generalizing text with
  | ind n ih =>
    subst hn
    by_cases hmem : '\n' ∈ text
    · obtain ⟨line, rest, rfl, hline⟩ := List.eq_append_cons_of_mem hmem
      rw [lines_append_newline hline]
      exact (ih rest.length (by simp; omega) rest rfl).cons hline
    · by_cases hne : text = []
      · subst hne
        exact .empty
      · rw [lines_of_notMem hne hmem]
        exact .last hne hmem

/-- A text that ends with a newline, or is empty, is cut apart from what follows. -/
theorem Cut.append {text rest : List Char} {ls ls' : List (List Char)} (h : Cut text ls)
    (hend : ∀ c, text.getLast? = some c → c = '\n') (hrest : Cut rest ls') :
    Cut (text ++ rest) (ls ++ ls') := by
  induction h with
  | empty => exact hrest
  | last hne hline =>
    have hlast := hend _ (List.getLast?_eq_some_getLast hne)
    exact absurd (hlast ▸ List.getLast_mem hne) hline
  | newline hline hreturn _ ih =>
    rw [List.append_assoc]
    refine .newline hline hreturn (ih fun c hc => hend c ?_)
    rw [List.getLast?_append, List.getLast?_cons, hc]
    rfl
  | returned hline _ ih =>
    rw [List.append_assoc]
    refine .returned hline (ih fun c hc => hend c ?_)
    rw [List.getLast?_append, List.getLast?_cons, List.getLast?_cons, hc]
    rfl

/-- Lines that are ended by newlines, and hold no line end of their own, are read back. -/
theorem cut_ended {ls : List (List Char)}
    (h : ∀ line ∈ ls, '\n' ∉ line ∧ line.getLast? ≠ some '\r') :
    Cut (ls.flatMap (· ++ ['\n'])) ls := by
  induction ls with
  | nil => exact .empty
  | cons line ls ih =>
    obtain ⟨⟨hline, hreturn⟩, hrest⟩ := List.forall_mem_cons.1 h
    rw [List.flatMap_cons, List.append_assoc]
    exact .newline hline hreturn (ih hrest)

theorem getLast?_ended {ls : List (List Char)} {c : Char}
    (h : (ls.flatMap (· ++ ['\n'])).getLast? = some c) : c = '\n' := by
  induction ls with
  | nil => cases h
  | cons line ls ih =>
    rw [List.flatMap_cons, List.getLast?_append, Option.or_eq_some_iff] at h
    rcases h with h | ⟨-, h⟩
    · exact ih h
    · rw [List.getLast?_concat] at h
      exact (Option.some.inj h).symm

/-- **The lines of a text.** A text is cut into the lines that are read from it and no others. -/
theorem lines_eq_iff {text : List Char} {ls : List (List Char)} :
    lines text = ls ↔ Cut text ls := by
  constructor
  · rintro rfl
    exact cut_lines text
  · exact Cut.lines_eq

theorem lines_append {text : List Char} (hend : ∀ c, text.getLast? = some c → c = '\n')
    (rest : List Char) : lines (text ++ rest) = lines text ++ lines rest :=
  lines_eq_iff.2 ((cut_lines text).append hend (cut_lines rest))

end Chip8.Text
