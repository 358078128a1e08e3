import Chip8.Proofs.KeyConfig.Bindings
import Chip8.Proofs.KeyConfig.Entry
import Chip8.Proofs.Text.Lines

/-!
# What a key configuration is read from

`Framed text ls` says without any reading order that a text has the frame of a configuration with
the lines `ls` inside it, trimmed and without the blank ones. The frame alone decides whether a text
can be read (`read_cases`).

**Theorem (`reading_keeps_good_lines`).** A host key is bound to what the last line says that binds
it, and no other key is bound. Wherever lines that bind nothing are put in or left out, the bindings
stay the same.
-/

namespace Chip8.KeyConfig

/-- Trimmed and without its blank lines, the text is `config{`, the lines `ls` and `}`. -/
def Framed (text : List Char) (ls : List (List Char)) : Prop :=
  ∃ lines, Text.Cut text lines ∧ Text.Kept lines ("config\x7b".toList :: ls ++ ["\x7d".toList])

/-- The line binds some host key. -/
def IsEntry (line : List Char) : Prop :=
  ∃ key action, Binds line key action

/-- The last of the lines that bind the host key binds it to this action. -/
def LastBinds (ls : List (List Char)) (key : HostKey) (action : KeyAction) : Prop :=
  ∃ before line after, ls = before ++ line :: after ∧ Binds line key action ∧
    ∀ other ∈ after, ∀ action', ¬Binds other key action'

/-- The second lines come from the first by putting in and leaving out lines that bind nothing. -/
inductive SameEntries : List (List Char) → List (List Char) → Prop
  | nil : SameEntries [] []
  | keep (line : List Char) {ls ls' : List (List Char)} :
      SameEntries ls ls' → SameEntries (line :: ls) (line :: ls')
  | insert {line : List Char} {ls ls' : List (List Char)} :
      ¬IsEntry line → SameEntries ls ls' → SameEntries ls (line :: ls')
  | delete {line : List Char} {ls ls' : List (List Char)} :
      ¬IsEntry line → SameEntries ls ls' → SameEntries (line :: ls) ls'

/-! ## The frame -/

theorem toList_header : "config\x7b".toList = header := by
  decide

theorem toList_footer : "\x7d".toList = footer := by
  decide

theorem trimmedLines_eq_iff {text : List Char} {kept : List (List Char)} :
    trimmedLines text = kept ↔ ∃ lines, Text.Cut text lines ∧ Text.Kept lines kept := by
  simp only [← Text.lines_eq_iff, exists_eq_left']
  exact Text.kept_iff.symm

theorem interior?_eq_some_iff {lines ls : List (List Char)} :
    interior? lines = some ls ↔ lines = "config\x7b".toList :: ls ++ ["\x7d".toList] := by
  rw [toList_header, toList_footer]
  cases lines with
  | nil => simp [interior?]
  | cons first rest =>
    rw [interior?, List.cons_append, List.cons.injEq]
    split
    · next h =>
      obtain ⟨rfl, hlast⟩ := h
      obtain ⟨ys, rfl⟩ := List.getLast?_eq_some_iff.1 hlast
      simp
    · next h =>
      constructor
      · exact nofun
      · rintro ⟨rfl, rfl⟩
        exact absurd ⟨rfl, List.getLast?_concat⟩ h

theorem framed_iff {text : List Char} {ls : List (List Char)} :
    Framed text ls ↔ interior? (trimmedLines text) = some ls := by
  rw [interior?_eq_some_iff, trimmedLines_eq_iff, Framed]

/-- A text with a frame is read, whatever stands inside it. -/
theorem read_of_framed {text : List Char} {ls : List (List Char)} (h : Framed text ls) :
    read text = .ok ⟨ofList (ls.filterMap binding?), ls.filterMap skipped?⟩ := by
  rw [read, framed_iff.1 h]

theorem read_of_not_framed {text : List Char} (h : ¬∃ ls, Framed text ls) :
    read text = .error .frame := by
  have hnone : interior? (trimmedLines text) = none :=
    Option.eq_none_iff_forall_ne_some.2 fun ls hls => h ⟨ls, framed_iff.2 hls⟩
  rw [read, hnone]

/-- **The frame** decides whether a text is read. -/
theorem read_cases (text : List Char) :
    (∃ ls r, Framed text ls ∧ read text = .ok r) ∨
      (¬∃ ls, Framed text ls) ∧ read text = .error .frame := by
  by_cases h : ∃ ls, Framed text ls
  · obtain ⟨ls, hframed⟩ := h
    exact .inl ⟨ls, _, hframed, read_of_framed hframed⟩
  · exact .inr ⟨h, read_of_not_framed h⟩

theorem isName_of_read {text : List Char} {r : Reading} (h : read text = .ok r) :
    ∀ b ∈ r.config.bindings, IsName b.1.toList := by
  rcases read_cases text with ⟨ls, r', hframed, -⟩ | ⟨-, hread⟩
  · cases (read_of_framed hframed).symm.trans h
    intro b hb
    obtain ⟨line, -, hline⟩ := List.mem_filterMap.1 (mem_of_mem_ofList hb)
    exact isName_of_binding? hline
  · cases hread.symm.trans h

theorem Framed.trimmed {text : List Char} {ls : List (List Char)} (h : Framed text ls) :
    ∀ line ∈ ls, Text.Trimmed line := by
  obtain ⟨lines, -, hkept⟩ := h
  intro line hline
  exact hkept.trimmed line (by simp [hline])

/-! ## Good lines and bad ones -/

/-- **Good lines.** The last line that binds a key counts. -/
theorem get?_ofList_lines {ls : List (List Char)} (h : ∀ line ∈ ls, Text.Trimmed line)
    (key : HostKey) (action : KeyAction) :
    (ofList (ls.filterMap binding?)).get? key = some action ↔ LastBinds ls key action := by
  rw [get?_ofList_eq_some_iff]
  constructor
  · rintro ⟨before, after, hls, hafter⟩
    obtain ⟨front, rest, rfl, -, hrest⟩ := List.filterMap_eq_append_iff.1 hls
    obtain ⟨skipped, line, back, rfl, -, hline, rfl⟩ := List.filterMap_eq_cons_iff.1 hrest
    refine ⟨front ++ skipped, line, back, by simp, ?_, fun other hother action' hbinds => ?_⟩
    · exact (binding?_eq_some_iff (h line (by simp))).1 hline
    · have hread := (binding?_eq_some_iff (h other (by simp [hother]))).2 hbinds
      exact hafter _ (List.mem_filterMap.2 ⟨other, hother, hread⟩) rfl
  · rintro ⟨before, line, after, rfl, hbinds, hafter⟩
    have hline := (binding?_eq_some_iff (h line (by simp))).2 hbinds
    refine ⟨before.filterMap binding?, after.filterMap binding?, ?_, fun b hb hkey => ?_⟩
    · rw [List.filterMap_append, List.filterMap_cons, hline]
    · obtain ⟨other, hother, hread⟩ := List.mem_filterMap.1 hb
      have hbinds' := (binding?_eq_some_iff (h other (by simp [hother]))).1 hread
      exact hafter other hother b.2 (hkey ▸ hbinds')

theorem binding?_eq_none {line : List Char} (htrimmed : Text.Trimmed line) (h : ¬IsEntry line) :
    binding? line = none :=
  Option.eq_none_iff_forall_ne_some.2 fun b hb => h ⟨b.1, b.2, (binding?_eq_some_iff htrimmed).1 hb⟩

/-- **Bad lines** do not matter, wherever they stand. -/
theorem SameEntries.filterMap_eq {ls ls' : List (List Char)} (h : SameEntries ls ls')
    (hls : ∀ line ∈ ls, Text.Trimmed line) (hls' : ∀ line ∈ ls', Text.Trimmed line) :
    ls'.filterMap binding? = ls.filterMap binding? := by
  induction h with
  | nil => rfl
  | keep line _ ih =>
    rw [List.filterMap_cons, List.filterMap_cons,
      ih (fun l hl => hls l (.tail line hl)) (fun l hl => hls' l (.tail line hl))]
  | @insert line _ _ hline _ ih =>
    rw [List.filterMap_cons_none (binding?_eq_none (hls' line List.mem_cons_self) hline),
      ih hls (fun l hl => hls' l (.tail line hl))]
  | @delete line _ _ hline _ ih =>
    rw [List.filterMap_cons_none (binding?_eq_none (hls line List.mem_cons_self) hline),
      ih (fun l hl => hls l (.tail line hl)) hls']

theorem not_isEntry_of_notMem {line : List Char} (h : '=' ∉ line) : ¬IsEntry line := by
  rintro ⟨key, action, -, before, after, value, -, -, -, rfl⟩
  exact h (by simp)

/-- **The reader keeps every good line and ignores every bad one.** A text is read exactly if it has
the frame of a configuration. Then every host key is bound to what the last line says that binds it,
no other key is bound, and a text that differs only in lines that bind nothing is read as the same
configuration. The lines of the frame are such lines. -/
theorem reading_keeps_good_lines (text : String) :
    ((∃ r, ofText text = .ok r) ↔ ∃ ls, Framed text.toList ls) ∧
      (∀ e, ofText text = .error e → e = .frame) ∧
      (∀ ls, Framed text.toList ls → ∃ r, ofText text = .ok r ∧
        (∀ key action, r.config.get? key = some action ↔ LastBinds ls key action) ∧
        ∀ text' ls', Framed text'.toList ls' → SameEntries ls ls' →
          ∃ r', ofText text' = .ok r' ∧ r'.config = r.config) ∧
      ¬IsEntry "config\x7b".toList ∧ ¬IsEntry "\x7d".toList := by
  refine ⟨?success, fun e he => ?failure, fun ls hframed => ?read,
    not_isEntry_of_notMem (by decide), not_isEntry_of_notMem (by decide)⟩
  case success =>
    rcases read_cases text.toList with ⟨ls, r, hframed, hread⟩ | ⟨hnot, hread⟩
    · exact ⟨fun _ => ⟨ls, hframed⟩, fun _ => ⟨r, hread⟩⟩
    · refine ⟨fun ⟨r, hr⟩ => ?_, fun hframed => absurd hframed hnot⟩
      cases hread.symm.trans hr
  case failure =>
    rcases read_cases text.toList with ⟨ls, r, hframed, hread⟩ | ⟨hnot, hread⟩
    · cases hread.symm.trans he
    · cases hread.symm.trans he
      rfl
  case read =>
    refine ⟨_, read_of_framed hframed, get?_ofList_lines hframed.trimmed,
      fun text' ls' hframed' hsame => ⟨_, read_of_framed hframed', ?_⟩⟩
    exact congrArg ofList (hsame.filterMap_eq hframed.trimmed hframed'.trimmed)

end Chip8.KeyConfig
