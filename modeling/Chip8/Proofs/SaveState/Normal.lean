import Chip8.Proofs.SaveState.RoundTrip

/-!
# The normal form of a save state

Reading a text and writing what was read gives the normal form of the text. `NormalForm` says what
changes on the way, without reading numbers: lines that are not empty are put in the order of the
tags, each ended by a newline alone, and numbers lose their leading zeros. The version, the trace
and the rows of the screen stay as they stand.

**Theorem (`reading_normalises`).** Exactly the writable states are read back from what is written
for them. A text that is read at all is read as a writable state, and its normal form is read as the
same state again and is its own normal form.
-/

namespace Chip8.SaveState

/-! ## Leading zeros -/

/-- A run of digits without leading zeros; its last digit always stays. -/
def unpadded : List Char → List Char
  | [] => []
  | [c] => [c]
  | c :: d :: rest => if c = '0' then unpadded (d :: rest) else c :: d :: rest

theorem unpadded_of_ne {c : Char} (hc : c ≠ '0') (rest : List Char) :
    unpadded (c :: rest) = c :: rest := by
  cases rest with
  | nil => rfl
  | cons d rest => rw [unpadded, if_neg hc]

theorem digitChar_value {c : Char} (h : c.isDigit = true) :
    c.toNat - '0'.toNat < 10 ∧ Nat.digitChar (c.toNat - '0'.toNat) = c := by
  have hrange : 48 ≤ c.toNat ∧ c.toNat ≤ 57 := by
    simpa [Char.isDigit, UInt32.le_iff_toNat_le] using h
  have hlt : c.toNat - '0'.toNat < 10 := by
    rw [show '0'.toNat = 48 from rfl]
    omega
  refine ⟨hlt, Char.toNat_inj.1 ?_⟩
  rw [Nat.toNat_digitChar_of_lt_ten hlt, show '0'.toNat = 48 from rfl]
  omega

/-- Digits behind a number that is not zero are written as they stand. -/
theorem decimal_append {n : Nat} (hn : 0 < n) {digits : List Char}
    (h : ∀ c ∈ digits, c.isDigit = true) :
    Numeral.decimal (Nat.ofDigitChars 10 digits n) = Numeral.decimal n ++ digits := by
  induction digits generalizing n with
  | nil => simp
  | cons c digits ih =>
    obtain ⟨hc, hdigits⟩ := List.forall_mem_cons.1 h
    obtain ⟨hlt, hchar⟩ := digitChar_value hc
    have hnext : Numeral.decimal (10 * n + (c.toNat - '0'.toNat)) = Numeral.decimal n ++ [c] := by
      rw [Numeral.decimal, ← Nat.toDigits_append_toDigits (by decide) hn hlt,
        Nat.toDigits_of_lt_base hlt, hchar, Numeral.decimal]
    rw [Nat.ofDigitChars_cons, ih (by omega) hdigits, hnext, List.append_assoc,
      List.singleton_append]

/-- The number that a run stands for is written as the run without its leading zeros. -/
theorem decimal_value {run : List Char} (h : IsRun run) :
    Numeral.decimal (value run) = unpadded run := by
  obtain ⟨hne, hdigits⟩ := h
  induction run with
  | nil => exact absurd rfl hne
  | cons c run ih =>
    obtain ⟨hc, hrest⟩ := List.forall_mem_cons.1 hdigits
    by_cases hzero : c = '0'
    · subst hzero
      cases run with
      | nil => rfl
      | cons d rest => exact ih (List.cons_ne_nil d rest) hrest
    · obtain ⟨hlt, hchar⟩ := digitChar_value hc
      have hpos : 0 < c.toNat - '0'.toNat := by
        refine Nat.pos_of_ne_zero fun hnone => hzero ?_
        rw [← hchar, hnone]
        rfl
      have hvalue : value (c :: run) = Nat.ofDigitChars 10 run (c.toNat - '0'.toNat) := by
        rw [value, Nat.ofDigitChars_cons, Nat.mul_zero, Nat.zero_add]
      rw [hvalue, decimal_append hpos hrest, Numeral.decimal, Nat.toDigits_of_lt_base hlt, hchar,
        unpadded_of_ne hzero, List.singleton_append]

example : unpadded ['0', '0', '7'] = ['7'] := by decide

/-! ## Payloads -/

/-- The second payload is the list of runs that the first one is, without leading zeros. -/
def Unpads (payload normal : List Char) : Prop :=
  ∃ entries, (∀ e ∈ entries, IsRun e) ∧ payload = commaJoin entries ∧
    normal = commaJoin (entries.map unpadded)

theorem Lists.unpads {payload : List Char} {ns : List Nat} (h : Lists payload ns) :
    Unpads payload (numbers ns) := by
  obtain ⟨entries, rfl, hruns, rfl⟩ := h
  refine ⟨entries, hruns, rfl, ?_⟩
  rw [numbers, List.map_map]
  exact congrArg commaJoin (List.map_congr_left fun e he => decimal_value (hruns e he))

theorem Denotes.unpads {payload : List Char} {n : Nat} (h : Denotes payload n) :
    Unpads payload (Numeral.decimal n) := by
  simpa [numbers] using (lists_singleton.2 h).unpads

theorem chunks_flatten {α : Type} {size : Nat} (hsize : 0 < size) {pieces : List (List α)}
    (h : ∀ piece ∈ pieces, piece.length = size) : chunks size pieces.flatten = pieces := by
  induction pieces with
  | nil => exact chunks_nil size
  | cons piece pieces ih =>
    obtain ⟨hpiece, hpieces⟩ := List.forall_mem_cons.1 h
    rw [List.flatten_cons, chunks_append hsize hpiece, ih hpieces]

theorem map_pixelDigit {row : List Char} (h : IsRow row) :
    (row.map (· == '1')).map pixelDigit = row := by
  rw [List.map_map]
  calc row.map (pixelDigit ∘ (· == '1'))
      = row.map id := List.map_congr_left fun c hc => by rcases h.2 c hc with rfl | rfl <;> rfl
    _ = row := List.map_id row

theorem Draws.eq {payload : List Char} {pixels : List Bool} (h : Draws payload pixels) :
    commaJoin (pixelRows pixels) = payload := by
  obtain ⟨rows, rfl, -, hrows, rfl⟩ := h
  have hwidths : ∀ piece ∈ rows.map fun row => row.map (· == '1'),
      piece.length = Screen.width := by
    intro piece hpiece
    obtain ⟨row, hrow, rfl⟩ := List.mem_map.1 hpiece
    rw [List.length_map]
    exact (hrows row hrow).1
  rw [pixelRows, chunks_flatten (by decide) hwidths, List.map_map]
  refine congrArg commaJoin ?_
  calc rows.map (List.map pixelDigit ∘ List.map (· == '1'))
      = rows.map id := List.map_congr_left fun row hrow => map_pixelDigit (hrows row hrow)
    _ = rows := List.map_id rows

/-- What becomes of a payload: numbers lose their leading zeros; the version, the trace and the
screen stay as they stand. -/
def Settles (tag : Char) (payload normal : List Char) : Prop :=
  if tag ∈ ['v', 'o', 's'] then normal = payload else Unpads payload normal

theorem Payloads.settles {payload : Char → List Char} {s : SaveState} (h : Payloads payload s) :
    ∀ tag ∈ tags, Settles tag (payload tag) (s.payloadOf tag) := by
  simp only [tags, List.forall_mem_cons]
  exact ⟨h.version.symm, h.cycles.unpads, h.trace.symm, h.memory.unpads, h.screen.eq,
    h.registers.unpads, h.index.unpads, h.pc.unpads, h.stack.unpads, h.delay.unpads,
    h.sound.unpads, h.generator.unpads, by simp⟩

/-! ## The whole text -/

/-- The second text is the normal form of the first. -/
def NormalForm (text normal : List Char) : Prop :=
  ∃ payload payload' : Char → List Char, Sectioned text payload ∧
    (∀ tag ∈ tags, Settles tag (payload tag) (payload' tag)) ∧
    normal = tags.flatMap fun tag => sectionLine tag (payload' tag)

theorem print_eq (s : SaveState) :
    s.print = tags.flatMap fun tag => sectionLine tag (s.payloadOf tag) := by
  rw [print, sections_eq, List.flatMap_map]

/-- A clean payload stands on a line of what is printed, also where other payloads are not clean. -/
theorem sectionText_mem_lines_print (s : SaveState) {tag : Char} (htag : tag ∈ tags)
    (h : Text.Clean (s.payloadOf tag)) :
    sectionText tag (s.payloadOf tag) ∈ Text.lines s.print := by
  obtain ⟨before, after, htags⟩ := List.append_of_mem htag
  have hend : ∀ c, (before.flatMap fun tag => sectionLine tag (s.payloadOf tag)).getLast? = some c →
      c = '\n' := by
    intro c hc
    simp only [sectionLine_eq] at hc
    rw [← List.flatMap_map (fun tag => sectionText tag (s.payloadOf tag)) (· ++ ['\n'])] at hc
    exact Text.getLast?_ended hc
  rw [print_eq, htags, List.flatMap_append, List.flatMap_cons, Text.lines_append hend,
    lines_sectionLine_append htag h]
  exact List.mem_append_right _ List.mem_cons_self

theorem Written.normalForm {text : List Char} {s : SaveState} (h : Written text s) :
    NormalForm text s.print := by
  obtain ⟨payload, hsections, hpayloads⟩ := h
  exact ⟨payload, s.payloadOf, hsections, hpayloads.settles, s.print_eq⟩

def normalise (text : String) : Except SaveStateError String :=
  SaveState.text <$> ofText text

theorem normalise_of_ofText {text : String} {s : SaveState} (h : ofText text = .ok s) :
    normalise text = .ok s.text := by
  rw [normalise, h]
  rfl

/-- **Reading and writing normalise.** The writable states are those that are read back from
what is written for them. A text that is read as a state is read as a writable one, and what is
written for it is the normal form of the text, which is read as the same state and stays as it
is from then on. -/
theorem reading_normalises :
    (∀ s : SaveState, ofText s.text = .ok s ↔ s.Writable) ∧
      ∀ (text : String) (s : SaveState), ofText text = .ok s →
        s.Writable ∧ ofText s.text = .ok s ∧ normalise text = .ok s.text ∧
          normalise s.text = .ok s.text ∧ NormalForm text.toList s.text.toList := by
  refine ⟨fun s => ⟨writable_of_ofText, ofText_text⟩, fun text s h => ?_⟩
  have hwritable := writable_of_ofText h
  have hagain := ofText_text hwritable
  refine ⟨hwritable, hagain, normalise_of_ofText h, normalise_of_ofText hagain, ?_⟩
  rw [SaveState.text, String.toList_ofList]
  exact (read_eq_ok_iff.1 h).normalForm

end Chip8.SaveState
