import Chip8.Proofs.SaveState.Sections

/-!
# The reader accepts exactly the written forms

The payloads are read one after the other; each of them is accepted exactly when it says what
the state holds (`payloads_of_ofSections`, `ofSections_of_payloads`). With the sections this gives
the main result.

**Theorem (`ofText_eq_ok_iff`).** A text is read as a state exactly when it is a written form of
that state.
-/

namespace Chip8.SaveState

/-! ## Payloads -/

theorem readVersion_eq_ok_iff {payload : List Char} :
    readVersion payload = .ok () ↔ payload = ['1'] := by
  have hversion : Numeral.decimal version = ['1'] := by decide
  rw [readVersion, hversion]
  split <;> simp_all

theorem readCycles_eq_ok_iff {payload : List Char} {n : Nat} :
    readCycles payload = .ok n ↔ Denotes payload n ∧ n ≤ 2147483647 := by
  simp only [readCycles, bind_eq_ok_iff, readNumber_eq_ok_iff]
  constructor
  · intro hfacts
    obtain ⟨k, ⟨hdenotes, -⟩, h⟩ := hfacts
    split at h
    · next hk =>
      obtain rfl := Except.ok.inj h
      exact ⟨hdenotes, hk⟩
    · simp at h
  · intro hfacts
    obtain ⟨hdenotes, hn⟩ := hfacts
    exact ⟨n, ⟨hdenotes, by omega⟩, if_pos hn⟩

theorem readRow_eq_ok_iff {row : List Char} {pixels : List Bool} :
    readRow row = .ok pixels ↔ IsRow row ∧ row.map (· == '1') = pixels := by
  have hdigits : row.all isPixelDigit = true ↔ ∀ c ∈ row, c = '0' ∨ c = '1' := by
    simp [isPixelDigit]
  rw [readRow, IsRow, ← hdigits]
  split
  · next hlength =>
    have hrow : row.length ≠ 64 := hlength
    simp [hrow]
  · next hlength =>
    rw [Decidable.not_not] at hlength
    split
    · next hall => simp [hlength, hall, Screen.width]
    · next hall => simp [hall]

theorem IsRow.isRun {row : List Char} (h : IsRow row) : IsRun row := by
  refine ⟨fun hnil => ?_, fun c hc => ?_⟩
  · simp [hnil, IsRow] at h
  · rcases h.2 c hc with rfl | rfl <;> rfl

/-- **Reading the screen.** A payload is read as the pixels that it draws. -/
theorem readScreen_eq_ok_iff {payload : List Char} {pixels : List Bool} :
    readScreen payload = .ok pixels ↔ Draws payload pixels := by
  simp only [readScreen, bind_eq_ok_iff, readEntries_eq_ok_iff]
  constructor
  · intro hfacts
    obtain ⟨rows, ⟨hjoin, -⟩, h⟩ := hfacts
    split at h
    · simp at h
    · next hlength =>
      rw [Decidable.not_not] at hlength
      obtain ⟨lists, hlists, hpixels⟩ := bind_eq_ok_iff.1 h
      obtain ⟨hrows, rfl⟩ := (mapM_eq_ok_iff readRow_eq_ok_iff).1 hlists
      exact ⟨rows, hjoin, hlength, hrows, pure_eq_ok_iff.1 hpixels⟩
  · intro hfacts
    obtain ⟨rows, hjoin, hlength, hrows, rfl⟩ := hfacts
    refine ⟨rows, ⟨hjoin, fun row hrow => (hrows row hrow).isRun⟩, ?_⟩
    rw [if_neg (show ¬rows.length ≠ Screen.height from not_not_intro hlength), bind_eq_ok_iff]
    exact ⟨_, (mapM_eq_ok_iff readRow_eq_ok_iff).2 ⟨hrows, rfl⟩, rfl⟩

/-! ## All payloads -/

theorem take_eq_ok_iff {found : List (Char × List Char)} {tag : Char} {payload : List Char} :
    take found tag = .ok payload ↔ payload? found tag = some payload := by
  rw [take]
  split <;> simp_all

theorem toNat_ofNat_word {n : Nat} (h : n ≤ 65535) : (UInt16.ofNat n).toNat = n :=
  UInt16.toNat_ofNat_of_lt' (Nat.lt_succ_of_le h)

theorem map_toNat_ofNat_word {ns : List Nat} (h : ∀ n ∈ ns, n ≤ 65535) :
    (ns.map UInt16.ofNat).map UInt16.toNat = ns := by
  rw [List.map_map]
  calc ns.map (UInt16.toNat ∘ UInt16.ofNat)
      = ns.map id := List.map_congr_left fun n hn => toNat_ofNat_word (h n hn)
    _ = ns := List.map_id ns

theorem map_ofNat_toNat_word (ws : List UInt16) :
    (ws.map UInt16.toNat).map UInt16.ofNat = ws := by
  simp [Function.comp_def]

/-- What is read from the payloads is what they say. -/
theorem payloads_of_ofSections {found : List (Char × List Char)} {s : SaveState}
    (h : ofSections found = .ok s) :
    ∃ payload, (∀ tag ∈ tags, payload? found tag = some (payload tag)) ∧
      Payloads payload s := by
  simp only [ofSections, bind_eq_ok_iff, take_eq_ok_iff, pure_eq_ok_iff] at h
  obtain ⟨v, hv, _, hversion, c, hc, cycles, hcycles, o, ho, m, hm, memory, hmemory,
    p, hp, screen, hscreen, r, hr, registers, hregisters, a, ha, index, hindex,
    q, hq, pc, hpc, k, hk, stack, hstack, d, hd, delay, hdelay, t, ht, sound, hsound,
    i, hi, generator, hgenerator, rfl⟩ := h
  obtain ⟨hcycles, hcycles_le⟩ := readCycles_eq_ok_iff.1 hcycles
  obtain ⟨hindex, hindex_le⟩ := readNumber_eq_ok_iff.1 hindex
  obtain ⟨hpc, hpc_le⟩ := readNumber_eq_ok_iff.1 hpc
  obtain ⟨hstack, hstack_le⟩ := readList_eq_ok_iff.1 hstack
  obtain ⟨hdelay, hdelay_le⟩ := readNumber_eq_ok_iff.1 hdelay
  obtain ⟨hsound, hsound_le⟩ := readNumber_eq_ok_iff.1 hsound
  refine ⟨fun tag => (payload? found tag).getD [], by simp [tags, *], ?_⟩
  constructor <;> simp only [hv, hc, ho, hm, hp, hr, ha, hq, hk, hd, ht, hi, Option.getD_some]
  case version => exact readVersion_eq_ok_iff.1 hversion
  case cycles => exact hcycles
  case cycles_le => exact hcycles_le
  case trace => rw [String.toList_ofList]
  case memory => exact readBytes_eq_ok_iff.1 hmemory
  case memory_length => exact memory.length_toList
  case screen => exact readScreen_eq_ok_iff.1 hscreen
  case registers => exact readBytes_eq_ok_iff.1 hregisters
  case index => rwa [toNat_ofNat_word hindex_le]
  case pc => rwa [toNat_ofNat_word hpc_le]
  case stack => rwa [map_toNat_ofNat_word hstack_le]
  case delay => rwa [toNat_ofNat_byte hdelay_le]
  case sound => rwa [toNat_ofNat_byte hsound_le]
  case generator => exact readBytes_eq_ok_iff.1 hgenerator

theorem ofSections_of_payloads {found : List (Char × List Char)} {s : SaveState}
    {payload : Char → List Char} (hfound : ∀ tag ∈ tags, payload? found tag = some (payload tag))
    (h : Payloads payload s) : ofSections found = .ok s := by
  have hmemory : Lists (payload 'm')
      ((Vector.mk s.memory.toArray h.memory_length).toList.map UInt8.toNat) := h.memory
  simp only [ofSections, bind_eq_ok_iff, take_eq_ok_iff, pure_eq_ok_iff]
  refine ⟨_, hfound 'v' (by decide), (), readVersion_eq_ok_iff.2 h.version,
    _, hfound 'c' (by decide), _, readCycles_eq_ok_iff.2 ⟨h.cycles, h.cycles_le⟩,
    _, hfound 'o' (by decide),
    _, hfound 'm' (by decide), _, readBytes_eq_ok_iff.2 hmemory,
    _, hfound 's' (by decide), _, readScreen_eq_ok_iff.2 h.screen,
    _, hfound 'r' (by decide), _, readBytes_eq_ok_iff.2 h.registers,
    _, hfound 'a' (by decide), _, readNumber_eq_ok_iff.2 ⟨h.index, ?_⟩,
    _, hfound 'p' (by decide), _, readNumber_eq_ok_iff.2 ⟨h.pc, ?_⟩,
    _, hfound 'k' (by decide), _, readList_eq_ok_iff.2 ⟨h.stack, ?_⟩,
    _, hfound 'd' (by decide), _, readNumber_eq_ok_iff.2 ⟨h.delay, ?_⟩,
    _, hfound 't' (by decide), _, readNumber_eq_ok_iff.2 ⟨h.sound, ?_⟩,
    _, hfound 'i' (by decide), _, readBytes_eq_ok_iff.2 h.generator, ?_⟩
  · exact Nat.le_of_lt_succ s.index.toNat_lt
  · exact Nat.le_of_lt_succ s.pc.toNat_lt
  · rintro n hn
    obtain ⟨w, -, rfl⟩ := List.mem_map.1 hn
    exact Nat.le_of_lt_succ w.toNat_lt
  · exact Nat.le_of_lt_succ s.delay.toNat_lt
  · exact Nat.le_of_lt_succ s.sound.toNat_lt
  · simp only [h.trace, map_ofNat_toNat_word, String.ofList_toList, UInt16.ofNat_toNat,
      UInt8.ofNat_toNat]
    rfl

/-! ## The whole text -/

/-- The characters of a text are read as a state exactly when they are a written form of it. -/
theorem read_eq_ok_iff {text : List Char} {s : SaveState} :
    read text = .ok s ↔ Written text s := by
  rw [read, bind_eq_ok_iff]
  constructor
  · intro h
    obtain ⟨found, hread, hstate⟩ := h
    obtain ⟨payload, hfound, hpayloads⟩ := payloads_of_ofSections hstate
    exact ⟨payload, exists_readSections_iff.1 ⟨found, hread, hfound⟩, hpayloads⟩
  · intro h
    obtain ⟨payload, hsections, hpayloads⟩ := h
    obtain ⟨found, hread, hfound⟩ := exists_readSections_iff.2 hsections
    exact ⟨found, hread, ofSections_of_payloads hfound hpayloads⟩

/-- **Acceptance.** A text is read as a state exactly when it is a written form of that state. -/
theorem ofText_eq_ok_iff (text : String) (s : SaveState) :
    ofText text = .ok s ↔ Written text.toList s := by
  rw [ofText, read_eq_ok_iff]

end Chip8.SaveState
