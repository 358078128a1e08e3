import Chip8.Proofs.KeyConfig.Reading

/-!
# Writing and reading key configurations

Names are written as they are. Whatever they hold, a name is followed by the rest of its line, so
the first and the last line of what is written are those of a configuration (`framed_print`).

**Theorem (`written_reads_back`).** What is written for a configuration can be read, and is read as
this configuration exactly if all of its names can be read. So it is read as this configuration if
the configuration was read itself.
-/

namespace Chip8.KeyConfig

/-! ## The frame -/

theorem trimmed_header : Text.Trimmed header :=
  ⟨fun c hc => by cases hc; decide, fun c hc => by cases hc; decide⟩

theorem trimmed_footer : Text.Trimmed footer :=
  ⟨fun c hc => by cases hc; decide, fun c hc => by cases hc; decide⟩

theorem framed_of_cut {entries : List Char} {lines ls : List (List Char)}
    (hcut : Text.Cut entries lines) (hend : ∀ c, entries.getLast? = some c → c = '\n')
    (hkept : Text.Kept lines ls) : Framed (header ++ '\n' :: entries ++ footer) ls := by
  have hheader : Text.Cut (header ++ '\n' :: entries) (header :: lines) :=
    .newline (by decide) (by decide) hcut
  have hfooter : Text.Cut footer [footer] := .last (by decide) (by decide)
  have hended : ∀ c, (header ++ '\n' :: entries).getLast? = some c → c = '\n' := by
    intro c hc
    rw [List.getLast?_append, List.getLast?_cons, Option.some_or] at hc
    cases hlast : entries.getLast? with
    | none => simpa [hlast] using hc.symm
    | some d => exact hend c (by simpa [hlast] using hc)
  refine ⟨_, hheader.append hended hfooter, ?_⟩
  rw [toList_header, toList_footer]
  exact .core trimmed_header.trims (by decide)
    (hkept.append (.core trimmed_footer.trims (by decide) .nil))

theorem print_eq (c : KeyConfig) :
    c.print = header ++ '\n' :: (c.bindings.map bindingLine).flatMap (· ++ ['\n']) ++ footer := by
  rw [print, List.flatMap_map]

/-- Whatever the names are, what is written has the frame of a configuration. -/
theorem framed_print (c : KeyConfig) : ∃ ls, Framed c.print ls := by
  obtain ⟨ls, hkept⟩ :=
    Text.exists_kept (Text.lines ((c.bindings.map bindingLine).flatMap (· ++ ['\n'])))
  rw [print_eq]
  exact ⟨ls, framed_of_cut (Text.lines_eq_iff.1 rfl) (fun _ => Text.getLast?_ended) hkept⟩

/-! ## Lines of bindings -/

theorem binds_bindingLine {b : Binding} (h : IsName b.1.toList) :
    Binds (bindingLine b) b.1 b.2 := by
  have hspace : Text.Blanks [' '] := List.forall_mem_singleton.2 (by decide)
  exact ⟨h, [' '], [' '], b.2.text.toList, hspace, hspace, b.2.spelledBy_text,
    by simp [bindingLine]⟩

theorem notMem_newline_bindingLine {b : Binding} (h : IsName b.1.toList) :
    '\n' ∉ bindingLine b := by
  have hblank : Text.isBlank '\n' = true := by decide
  have hname : '\n' ∉ b.1.toList := by
    intro hmem
    rw [(h.2 _ hmem).not_blank] at hblank
    cases hblank
  have hvalue : '\n' ∉ b.2.text.toList := by
    intro hmem
    rw [b.2.spelledBy_text.word.2 _ hmem] at hblank
    cases hblank
  simp [bindingLine, hname, hvalue]

theorem bindingLine_ne_nil (b : Binding) : bindingLine b ≠ [] := by
  simp [bindingLine]

/-- With names that can be read, the lines inside the frame are those of the bindings. -/
theorem framed_print_of_names {c : KeyConfig} (h : ∀ b ∈ c.bindings, IsName b.1.toList) :
    Framed c.print (c.bindings.map bindingLine) := by
  have htrimmed : ∀ b ∈ c.bindings, Text.Trimmed (bindingLine b) := fun b hb =>
    (binds_bindingLine (h b hb)).trimmed
  rw [print_eq]
  refine framed_of_cut (Text.cut_ended ?lines) (fun _ => Text.getLast?_ended) (Text.kept_self ?kept)
  case lines =>
    rw [List.forall_mem_map]
    refine fun b hb => ⟨notMem_newline_bindingLine (h b hb), fun hreturn => ?_⟩
    exact absurd ((htrimmed b hb).last _ hreturn) (by decide)
  case kept =>
    rw [List.forall_mem_map]
    exact fun b hb => ⟨htrimmed b hb, bindingLine_ne_nil b⟩

theorem filterMap_bindingLine {bs : List Binding} (h : ∀ b ∈ bs, IsName b.1.toList) :
    (bs.map bindingLine).filterMap binding? = bs := by
  induction bs with
  | nil => rfl
  | cons b bs ih =>
    obtain ⟨hb, hrest⟩ := List.forall_mem_cons.1 h
    have hbinds := binds_bindingLine hb
    have hread : binding? (bindingLine b) = some b := (binding?_eq_some_iff hbinds.trimmed).2 hbinds
    rw [List.map_cons, List.filterMap_cons, hread, ih hrest]

/-! ## Round trips -/

theorem read_print_of_names {c : KeyConfig} (h : ∀ b ∈ c.bindings, IsName b.1.toList) :
    ∃ r, read c.print = .ok r ∧ r.config = c := by
  refine ⟨_, read_of_framed (framed_print_of_names h), ?_⟩
  rw [filterMap_bindingLine h, ofList_bindings]

theorem ofText_text (c : KeyConfig) : ofText c.text = read c.print := by
  rw [ofText, text, String.toList_ofList]

/-- **Writing and reading.** What is written for a configuration can always be read. It is read as
this configuration exactly if every name in it is made of ASCII letters, digits and underscores and
is not empty. The names of a configuration that was read are, so it is read back. -/
theorem written_reads_back :
    (∀ c : KeyConfig, ∃ r, ofText c.text = .ok r ∧
      (r.config = c ↔ ∀ b ∈ c.bindings, IsName b.1.toList)) ∧
    ∀ text r, ofText text = .ok r → (∀ b ∈ r.config.bindings, IsName b.1.toList) ∧
      ∃ r', ofText r.config.text = .ok r' ∧ r'.config = r.config := by
  refine ⟨fun c => ?written, fun text r hread => ?again⟩
  case written =>
    obtain ⟨ls, hframed⟩ := c.framed_print
    have hread := read_of_framed hframed
    rw [ofText_text]
    refine ⟨_, hread, fun heq => heq ▸ isName_of_read hread, fun hnames => ?_⟩
    obtain ⟨r, hr, hconfig⟩ := read_print_of_names hnames
    cases hread.symm.trans hr
    exact hconfig
  case again =>
    have hnames := isName_of_read hread
    rw [ofText_text]
    exact ⟨hnames, read_print_of_names hnames⟩

end Chip8.KeyConfig
