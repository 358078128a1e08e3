import Chip8.Proofs.Numeral
import Chip8.Proofs.SaveState.Acceptance

/-!
# What is written is read again

A state is `Writable` when its memory and its screen have the right size, its cycle counter is in
range and its trace is clean.

**Theorem (`read_print`).** A writable state is written so that reading gives it back.

**Theorem (`Written.writable`).** Conversely, only writable states have a written form, so
whatever was read can be written.
-/

namespace Chip8.SaveState

/-- The state can be written so that it is read again. -/
structure Writable (s : SaveState) : Prop where
  memory_length : s.memory.length = 4095
  screen_length : s.screen.length = 2048
  cycles_le : s.cycles ≤ 2147483647
  trace_clean : Text.Clean s.trace.toList

/-! ## Numbers -/

theorem isRun_decimal (n : Nat) : IsRun (Numeral.decimal n) :=
  ⟨Nat.toDigits_ne_nil, fun _ hc => Numeral.isDigit_of_mem_decimal hc⟩

@[simp] theorem value_decimal (n : Nat) : value (Numeral.decimal n) = n :=
  Nat.ofDigitChars_ten_toDigits

theorem denotes_decimal (n : Nat) : Denotes (Numeral.decimal n) n :=
  ⟨isRun_decimal n, value_decimal n⟩

theorem lists_numbers (ns : List Nat) : Lists (numbers ns) ns := by
  refine ⟨ns.map Numeral.decimal, rfl, fun e he => ?_, ?_⟩
  · obtain ⟨n, -, rfl⟩ := List.mem_map.1 he
    exact isRun_decimal n
  · simp [Function.comp_def]

/-! ## Pixels -/

theorem chunks_nil {α : Type} (size : Nat) : chunks size ([] : List α) = [] := by
  rw [chunks]

theorem chunks_append {α : Type} {size : Nat} {front rest : List α} (hsize : 0 < size)
    (h : front.length = size) : chunks size (front ++ rest) = front :: chunks size rest := by
  subst h
  cases front with
  | nil => simp at hsize
  | cons x front => simp [chunks]

/-- A list of `count` times `size` elements is cut into `count` pieces of `size` elements. -/
theorem chunks_spec {α : Type} {size count : Nat} (hsize : 0 < size) {l : List α}
    (h : l.length = count * size) :
    (chunks size l).length = count ∧ (∀ piece ∈ chunks size l, piece.length = size) ∧
      (chunks size l).flatten = l := by
  induction count generalizing l with
  | zero =>
    obtain rfl : l = [] := List.eq_nil_of_length_eq_zero (by simpa using h)
    simp [chunks_nil]
  | succ count ih =>
    have hle : size ≤ l.length := by
      rw [h, Nat.succ_mul]
      omega
    have hfront : (l.take size).length = size := List.length_take_of_le hle
    have hrest : (l.drop size).length = count * size := by
      rw [List.length_drop, h, Nat.succ_mul]
      omega
    obtain ⟨hcount, hpieces, hflat⟩ := ih hrest
    rw [← List.take_append_drop size l, chunks_append hsize hfront]
    refine ⟨by simp [hcount], List.forall_mem_cons.2 ⟨hfront, hpieces⟩, ?_⟩
    rw [List.flatten_cons, hflat]

theorem pixelDigit_beq (on : Bool) : (pixelDigit on == '1') = on := by
  cases on <;> rfl

theorem draws_pixelRows {pixels : List Bool} (h : pixels.length = 2048) :
    Draws (commaJoin (pixelRows pixels)) pixels := by
  have hlength : pixels.length = 32 * 64 := h
  obtain ⟨hcount, hpieces, hflat⟩ := chunks_spec (by decide) hlength
  refine ⟨pixelRows pixels, rfl, by rw [pixelRows, List.length_map]; exact hcount, ?_, ?_⟩
  · intro row hrow
    obtain ⟨piece, hpiece, rfl⟩ := List.mem_map.1 hrow
    refine ⟨by rw [List.length_map]; exact hpieces piece hpiece, fun c hc => ?_⟩
    obtain ⟨on, -, rfl⟩ := List.mem_map.1 hc
    cases on
    · exact .inl rfl
    · exact .inr rfl
  · simp only [pixelRows, List.map_map, Function.comp_def, pixelDigit_beq, List.map_id']
    exact hflat

/-! ## Clean payloads -/

theorem clean_commaJoin {entries : List (List Char)} (h : ∀ e ∈ entries, IsRun e) :
    Text.Clean (commaJoin entries) := by
  induction entries with
  | nil => simp
  | cons entry rest ih =>
    obtain ⟨hentry, hrest⟩ := List.forall_mem_cons.1 h
    have hclean := Numeral.clean_of_isDigit hentry.2
    cases rest with
    | nil => simpa using hclean
    | cons other rest =>
      rw [commaJoin_cons_cons]
      simpa using ⟨hclean, ih hrest⟩

theorem Lists.clean {payload : List Char} {ns : List Nat} (h : Lists payload ns) :
    Text.Clean payload := by
  obtain ⟨entries, rfl, hruns, -⟩ := h
  exact clean_commaJoin hruns

theorem Denotes.clean {payload : List Char} {n : Nat} (h : Denotes payload n) :
    Text.Clean payload :=
  Numeral.clean_of_isDigit h.1.2

theorem Draws.clean {payload : List Char} {pixels : List Bool} (h : Draws payload pixels) :
    Text.Clean payload := by
  obtain ⟨rows, rfl, -, hrows, -⟩ := h
  exact clean_commaJoin fun row hrow => (hrows row hrow).isRun

theorem Payloads.clean {payload : Char → List Char} {s : SaveState} (h : Payloads payload s)
    (htrace : Text.Clean s.trace.toList) : ∀ tag ∈ tags, Text.Clean (payload tag) := by
  have hversion : Text.Clean (payload 'v') := by
    rw [h.version]
    simp
  simp only [tags, List.forall_mem_cons]
  exact ⟨hversion, h.cycles.clean, h.trace ▸ htrace, h.memory.clean, h.screen.clean,
    h.registers.clean, h.index.clean, h.pc.clean, h.stack.clean, h.delay.clean, h.sound.clean,
    h.generator.clean, by simp⟩

/-! ## The whole text -/

/-- The payload that is written for a tag. -/
def payloadOf (s : SaveState) (tag : Char) : List Char :=
  (payload? s.sections tag).getD []

theorem sections_eq (s : SaveState) :
    s.sections = tags.map fun tag => (tag, s.payloadOf tag) := by
  rfl

theorem payloads_payloadOf {s : SaveState} (h : s.Writable) : Payloads s.payloadOf s where
  version := (by decide : Numeral.decimal version = ['1'])
  cycles := denotes_decimal s.cycles
  cycles_le := h.cycles_le
  trace := rfl
  memory := lists_numbers _
  memory_length := h.memory_length
  screen := draws_pixelRows h.screen_length
  registers := lists_numbers _
  index := denotes_decimal _
  pc := denotes_decimal _
  stack := lists_numbers _
  delay := denotes_decimal _
  sound := denotes_decimal _
  generator := lists_numbers _

theorem sectionLine_eq (tag : Char) (payload : List Char) :
    sectionLine tag payload = sectionText tag payload ++ ['\n'] := by
  simp [sectionLine, sectionText]

/-- Sections with clean tags and payloads are written as one line each. -/
theorem cut_sectionLines {sections : List (Char × List Char)}
    (h : ∀ p ∈ sections, p.1 ≠ '\n' ∧ Text.Clean p.2) :
    Text.Cut (sections.flatMap fun p => sectionLine p.1 p.2)
      (sections.map fun p => sectionText p.1 p.2) := by
  have hlines : (sections.flatMap fun p => sectionLine p.1 p.2) =
      (sections.map fun p => sectionText p.1 p.2).flatMap (· ++ ['\n']) := by
    simp only [List.flatMap_map, sectionLine_eq]
  rw [hlines]
  refine Text.cut_ended fun line hmem => ?_
  obtain ⟨p, hp, rfl⟩ := List.mem_map.1 hmem
  obtain ⟨htag, hpayload⟩ := h p hp
  refine ⟨?_, ?_⟩
  · have hmem : '\n' ∉ p.2 := fun hmem => (hpayload '\n' hmem).2.2 rfl
    simp [sectionText, hmem, Ne.symm htag]
  · have hclose : sectionText p.1 p.2 = (p.1 :: '{' :: p.2) ++ ['}'] := rfl
    rw [hclose, List.getLast?_concat]
    decide

/-- A section with a clean payload is one line, whatever follows it. -/
theorem lines_sectionLine_append {tag : Char} {payload : List Char} (htag : tag ∈ tags)
    (h : Text.Clean payload) (rest : List Char) :
    Text.lines (sectionLine tag payload ++ rest) = sectionText tag payload :: Text.lines rest := by
  have hcut : Text.Cut (sectionLine tag payload) [sectionText tag payload] := by
    have hsection : ∀ p ∈ [(tag, payload)], p.1 ≠ '\n' ∧ Text.Clean p.2 := by
      simp [ne_newline_of_mem htag, h]
    simpa using cut_sectionLines hsection
  have hend : ∀ c, (sectionLine tag payload).getLast? = some c → c = '\n' := by
    rw [sectionLine_eq, List.getLast?_concat]
    exact fun c hc => (Option.some.inj hc).symm
  rw [Text.lines_append hend, Text.lines_eq_iff.2 hcut, List.singleton_append]

/-- A printed state is a written form of itself. -/
theorem written_print {s : SaveState} (h : s.Writable) : Written s.print s := by
  have hpayloads := payloads_payloadOf h
  have hclean := hpayloads.clean h.trace_clean
  refine ⟨s.payloadOf, ⟨fun tag htag => ?_, _, cut_sectionLines ?_, ?_⟩, hpayloads⟩
  · exact ⟨fun hmem => (hclean tag htag _ hmem).1 rfl, fun hmem => (hclean tag htag _ hmem).2.1 rfl⟩
  · intro p hp
    rw [sections_eq] at hp
    obtain ⟨tag, htag, rfl⟩ := List.mem_map.1 hp
    exact ⟨ne_newline_of_mem htag, hclean tag htag⟩
  · have hne : ∀ line ∈ s.sections.map fun p => sectionText p.1 p.2, line ≠ [] := by
      intro line hline
      obtain ⟨p, -, rfl⟩ := List.mem_map.1 hline
      exact sectionText_ne_nil p.1 p.2
    rw [List.filter_eq_self.2 (by simpa using hne), sections_eq, List.map_map]
    exact .refl _

/-- **Round trip.** A writable state is read back from what is printed for it. -/
theorem read_print {s : SaveState} (h : s.Writable) : read s.print = .ok s :=
  read_eq_ok_iff.2 (written_print h)

theorem ofText_text {s : SaveState} (h : s.Writable) : ofText s.text = .ok s := by
  rw [ofText, text, String.toList_ofList, read_print h]

/-! ## What is read can be written -/

theorem Draws.length {payload : List Char} {pixels : List Bool} (h : Draws payload pixels) :
    pixels.length = 2048 := by
  obtain ⟨rows, -, hcount, hrows, rfl⟩ := h
  have hwidths : ∀ n ∈ (rows.map fun row => row.map (· == '1')).map List.length, n = 64 := by
    intro n hn
    simp only [List.map_map, List.mem_map, Function.comp_apply, List.length_map] at hn
    obtain ⟨row, hrow, rfl⟩ := hn
    exact (hrows row hrow).1
  rw [List.length_flatten, List.eq_replicate_of_mem hwidths]
  simp [hcount]

/-- The payload of a section stands on one line, and the braces around it are not part of it. -/
theorem Sectioned.clean {text : List Char} {payload : Char → List Char}
    (h : Sectioned text payload) {tag : Char} (htag : tag ∈ tags) :
    Text.Clean (payload tag) := by
  obtain ⟨hplain, ls, hcut, hperm⟩ := h
  have hmem : sectionText tag (payload tag) ∈ ls := by
    have hsection : sectionText tag (payload tag) ∈
        tags.map fun tag => sectionText tag (payload tag) := List.mem_map_of_mem htag
    exact List.mem_of_mem_filter (hperm.mem_iff.2 hsection)
  have hline := hcut.notMem_newline _ hmem
  intro c hc
  refine ⟨?_, ?_, ?_⟩
  · rintro rfl
    exact (hplain tag htag).1 hc
  · rintro rfl
    exact (hplain tag htag).2 hc
  · rintro rfl
    exact hline (by simp [sectionText, hc])

/-- A state that has a written form is writable. -/
theorem Written.writable {text : List Char} {s : SaveState} (h : Written text s) :
    s.Writable := by
  obtain ⟨payload, hsections, hpayloads⟩ := h
  exact {
    memory_length := hpayloads.memory_length
    screen_length := hpayloads.screen.length
    cycles_le := hpayloads.cycles_le
    trace_clean := hpayloads.trace ▸ hsections.clean (by decide) }

theorem writable_of_ofText {text : String} {s : SaveState} (h : ofText text = .ok s) :
    s.Writable :=
  (read_eq_ok_iff.1 h).writable

end Chip8.SaveState
