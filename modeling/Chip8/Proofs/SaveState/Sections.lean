import Chip8.Proofs.SaveState.Grammar
import Mathlib.Data.List.Nodup
import Mathlib.Data.List.Perm.Basic

/-!
# Reading the sections

The reader goes through the lines with the sections found so far, which are `Orderly` all the time.
A line that is not empty adds a section exactly when it is one, with a known and new tag
(`addLine_eq_ok_iff`).

**Theorem (`exists_readSections_iff`).** The reader finds a payload for every tag exactly when
the text is sectioned with these payloads.
-/

namespace Chip8.SaveState

/-! ## One section -/

theorem plain_iff {payload : List Char} :
    Plain payload ↔ ∀ c ∈ payload, isPayloadChar c = true := by
  simp only [Plain, isPayloadChar, Bool.and_eq_true, bne_iff_ne]
  constructor
  · rintro ⟨hopen, hclose⟩ c hc
    exact ⟨fun h => hopen (h ▸ hc), fun h => hclose (h ▸ hc)⟩
  · intro h
    exact ⟨fun hmem => (h '{' hmem).1 rfl, fun hmem => (h '}' hmem).2 rfl⟩

theorem isTagChar_of_mem {tag : Char} (h : tag ∈ tags) : isTagChar tag = true :=
  List.all_eq_true.1 (by decide : tags.all isTagChar = true) tag h

theorem ne_newline_of_mem {tag : Char} (h : tag ∈ tags) : tag ≠ '\n' := by
  rintro rfl
  exact absurd h (by decide)

theorem readSection_sectionText {tag : Char} {payload : List Char}
    (htag : isTagChar tag = true) (h : Plain payload) :
    readSection (sectionText tag payload) = .ok (tag, payload) := by
  have hpayload := plain_iff.1 h
  have htake : (payload ++ ['}']).takeWhile isPayloadChar = payload := by
    rw [List.takeWhile_append_of_pos hpayload, List.takeWhile_cons_of_neg (by decide),
      List.append_nil]
  have hdrop : (payload ++ ['}']).dropWhile isPayloadChar = ['}'] := by
    rw [List.dropWhile_append_of_pos hpayload, List.dropWhile_cons_of_neg (by decide)]
  simp [readSection, sectionText, htag, htake, hdrop, closeSection]

theorem eq_of_closeSection {tag : Char} {payload rest : List Char} {p : Char × List Char}
    (h : closeSection tag payload rest = .ok p) : rest = ['}'] ∧ p = (tag, payload) := by
  unfold closeSection at h
  split at h
  · exact ⟨rfl, (Except.ok.inj h).symm⟩
  · simp at h
  · simp at h

theorem eq_of_readSection {line : List Char} {p : Char × List Char}
    (h : readSection line = .ok p) : line = sectionText p.1 p.2 ∧ Plain p.2 := by
  unfold readSection at h
  split at h
  · simp at h
  · next tag rest =>
    split at h
    · simp at h
    split at h
    · next rest =>
      obtain ⟨hrest, rfl⟩ := eq_of_closeSection h
      have hsplit := List.takeWhile_append_dropWhile (p := isPayloadChar) (l := rest)
      rw [hrest] at hsplit
      refine ⟨by rw [sectionText, hsplit], plain_iff.2 fun c hc => ?_⟩
      exact List.all_eq_true.1 List.all_takeWhile c hc
    · simp at h

/-! ## One line -/

/-- The sections have different known tags and plain payloads. -/
structure Orderly (found : List (Char × List Char)) : Prop where
  nodup : (found.map Prod.fst).Nodup
  known : ∀ p ∈ found, p.1 ∈ tags
  plain : ∀ p ∈ found, Plain p.2

theorem orderly_nil : Orderly [] :=
  ⟨List.nodup_nil, by simp, by simp⟩

theorem orderly_cons {p : Char × List Char} {found : List (Char × List Char)} :
    Orderly (p :: found) ↔
      (p.1 ∈ tags ∧ Plain p.2 ∧ p.1 ∉ found.map Prod.fst) ∧ Orderly found := by
  constructor
  · intro hfacts
    obtain ⟨hnodup, hknown, hplain⟩ := hfacts
    rw [List.map_cons, List.nodup_cons] at hnodup
    rw [List.forall_mem_cons] at hknown hplain
    exact ⟨⟨hknown.1, hplain.1, hnodup.1⟩, hnodup.2, hknown.2, hplain.2⟩
  · intro hfacts
    obtain ⟨⟨hknown, hplain, hnew⟩, h⟩ := hfacts
    exact ⟨List.nodup_cons.2 ⟨hnew, h.nodup⟩, List.forall_mem_cons.2 ⟨hknown, h.known⟩,
      List.forall_mem_cons.2 ⟨hplain, h.plain⟩⟩

theorem Orderly.of_append {front found : List (Char × List Char)}
    (h : Orderly (front ++ found)) : Orderly found := by
  induction front with
  | nil => exact h
  | cons p front ih => exact ih (orderly_cons.1 h).2

theorem payload?_isSome_iff {found : List (Char × List Char)} {tag : Char} :
    (payload? found tag).isSome = true ↔ tag ∈ found.map Prod.fst := by
  simp only [payload?, List.lookup_isSome_iff, beq_iff_eq, List.mem_map]
  exact ⟨fun ⟨p, hp, h⟩ => ⟨p, hp, h.symm⟩, fun ⟨p, hp, h⟩ => ⟨p, hp, h.symm⟩⟩

/-- A line adds a section exactly when it is one whose tag is known and new. -/
theorem addLine_eq_ok_iff {found found' : List (Char × List Char)} {number : Nat}
    {line : List Char} (hline : line ≠ []) :
    addLine found number line = .ok found' ↔
      ∃ p : Char × List Char, line = sectionText p.1 p.2 ∧
        (p.1 ∈ tags ∧ Plain p.2 ∧ p.1 ∉ found.map Prod.fst) ∧ found' = p :: found := by
  rw [addLine, if_neg hline]
  constructor
  · intro h
    split at h
    · simp at h
    · next tag payload hread =>
      obtain ⟨hsection, hplain⟩ := eq_of_readSection hread
      split at h
      · simp at h
      next hknown =>
      split at h
      · simp at h
      next hnew =>
      rw [payload?_isSome_iff] at hnew
      rw [Decidable.not_not] at hknown
      exact ⟨(tag, payload), hsection, ⟨hknown, hplain, hnew⟩, (Except.ok.inj h).symm⟩
  · intro hfacts
    obtain ⟨⟨tag, payload⟩, rfl, ⟨hknown, hplain, hnew⟩, rfl⟩ := hfacts
    rw [← payload?_isSome_iff] at hnew
    rw [readSection_sectionText (isTagChar_of_mem hknown) hplain]
    simp only [hknown, hnew, not_true, if_false]
    rfl

/-! ## All lines -/

theorem sectionText_ne_nil (tag : Char) (payload : List Char) :
    sectionText tag payload ≠ [] := by
  simp [sectionText]

/-- From orderly sections, the lines lead to orderly sections that they show one by one. -/
theorem addLines_eq_ok_iff {found found' : List (Char × List Char)} {number : Nat}
    {ls : List (List Char)} (h : Orderly found) :
    addLines found number ls = .ok found' ↔
      Orderly found' ∧ ∃ added : List (Char × List Char), found' = added.reverse ++ found ∧
        ls.filter (· ≠ []) = added.map fun p => sectionText p.1 p.2 := by
  induction ls generalizing found found' number with
  | nil =>
    simp only [addLines, Except.ok.injEq, List.filter_nil]
    constructor
    · rintro rfl
      exact ⟨h, [], rfl, rfl⟩
    · intro hfacts
      obtain ⟨-, added, rfl, hadded⟩ := hfacts
      obtain rfl := List.map_eq_nil_iff.1 hadded.symm
      rfl
  | cons line ls ih =>
    by_cases hline : line = []
    · subst hline
      simpa [addLines, addLine] using ih h
    · rw [List.filter_cons_of_pos (by simpa using hline), addLines]
      constructor
      · intro hok
        split at hok
        · simp at hok
        · next found₁ hadd =>
          obtain ⟨p, hsection, hp, rfl⟩ := (addLine_eq_ok_iff hline).1 hadd
          obtain ⟨h', added, rfl, hadded⟩ := (ih (orderly_cons.2 ⟨hp, h⟩)).1 hok
          exact ⟨h', p :: added, by simp, by rw [List.map_cons, hadded, hsection]⟩
      · intro hfacts
        obtain ⟨h', added, rfl, hadded⟩ := hfacts
        obtain ⟨p, added, rfl, hsection, hrest⟩ := List.map_eq_cons_iff.1 hadded.symm
        have happend : (p :: added).reverse ++ found = added.reverse ++ p :: found := by simp
        rw [happend] at h' ⊢
        have hp := (orderly_cons.1 h'.of_append).1
        have hadd : addLine found number line = .ok (p :: found) :=
          (addLine_eq_ok_iff hline).2 ⟨p, hsection.symm, hp, rfl⟩
        rw [hadd]
        exact (ih (orderly_cons.2 ⟨hp, h⟩)).2 ⟨h', added, rfl, hrest.symm⟩

/-- The sections of a text are orderly and stand on its lines, the last one found in front. -/
theorem readSections_eq_ok_iff {text : List Char} {found : List (Char × List Char)} :
    readSections text = .ok found ↔
      Orderly found ∧ (Text.lines text).filter (· ≠ []) =
        found.reverse.map fun p => sectionText p.1 p.2 := by
  rw [readSections, addLines_eq_ok_iff orderly_nil]
  simp only [List.append_nil]
  constructor
  · intro hfacts
    obtain ⟨h, added, rfl, hadded⟩ := hfacts
    exact ⟨h, by rwa [List.reverse_reverse]⟩
  · intro hfacts
    obtain ⟨h, hlines⟩ := hfacts
    exact ⟨h, found.reverse, by rw [List.reverse_reverse], hlines⟩

/-! ## Payloads by tag -/

theorem Orderly.payload?_eq_some_iff {found : List (Char × List Char)} (h : Orderly found)
    {tag : Char} {payload : List Char} :
    payload? found tag = some payload ↔ (tag, payload) ∈ found := by
  induction found with
  | nil => simp [payload?]
  | cons p found ih =>
    obtain ⟨⟨-, -, hnew⟩, hfound⟩ := orderly_cons.1 h
    rw [payload?] at ih ⊢
    rw [List.lookup_cons]
    by_cases htag : tag = p.1
    · subst htag
      have hnot : (p.1, payload) ∉ found := fun hmem =>
        hnew (List.mem_map.2 ⟨(p.1, payload), hmem, rfl⟩)
      simp [Prod.ext_iff, hnot, eq_comm]
    · have hne : (tag == p.1) = false := by simpa using htag
      rw [hne, List.mem_cons]
      have hp : (tag, payload) ≠ p := fun heq => htag (congrArg Prod.fst heq)
      simpa [hp] using ih hfound

theorem tags_nodup : tags.Nodup := by
  decide

theorem sectioned_iff {text : List Char} {payload : Char → List Char} :
    Sectioned text payload ↔ (∀ tag ∈ tags, Plain (payload tag)) ∧
      ((Text.lines text).filter (· ≠ [])).Perm
        (tags.map fun tag => sectionText tag (payload tag)) := by
  simp only [Sectioned, ← Text.lines_eq_iff, exists_eq_left']

/-- **Reading the sections.** A payload is found for every tag exactly when the text consists of
one section for every tag, with that payload. -/
theorem exists_readSections_iff {text : List Char} {payload : Char → List Char} :
    (∃ found, readSections text = .ok found ∧
        ∀ tag ∈ tags, payload? found tag = some (payload tag)) ↔
      Sectioned text payload := by
  rw [sectioned_iff]
  constructor
  · intro hfacts
    obtain ⟨found, hread, hpayload⟩ := hfacts
    obtain ⟨h, hlines⟩ := readSections_eq_ok_iff.1 hread
    have hmem : ∀ tag ∈ tags, (tag, payload tag) ∈ found :=
      fun tag htag => h.payload?_eq_some_iff.1 (hpayload tag htag)
    refine ⟨fun tag htag => h.plain _ (hmem tag htag), ?_⟩
    -- The tags found are all tags, and each stands with its payload.
    have hperm : (found.map Prod.fst).Perm tags := by
      refine (List.perm_ext_iff_of_nodup h.nodup tags_nodup).2 fun tag => ⟨?_, fun htag => ?_⟩
      · rintro hfound
        obtain ⟨p, hp, rfl⟩ := List.mem_map.1 hfound
        exact h.known p hp
      · exact List.mem_map_of_mem (hmem tag htag)
    have hfound : ∀ p ∈ found, sectionText p.1 p.2 = sectionText p.1 (payload p.1) := by
      intro p hp
      have hp' := h.payload?_eq_some_iff.2 (show (p.1, p.2) ∈ found from hp)
      rw [hpayload p.1 (h.known p hp)] at hp'
      rw [Option.some.inj hp']
    rw [hlines, List.map_reverse, List.map_congr_left hfound]
    have hsections := hperm.map fun tag => sectionText tag (payload tag)
    rw [List.map_map] at hsections
    exact (List.reverse_perm _).trans hsections
  · intro hfacts
    obtain ⟨hplain, hperm⟩ := hfacts
    -- The tags in the order of the lines.
    obtain ⟨order, hlines, hheads⟩ := (congrFun₂
      (List.eq_map_comp_perm fun tag => sectionText tag (payload tag)) _ tags).symm.mp hperm
    have hknown : ∀ tag ∈ order, tag ∈ tags := fun tag htag => hheads.mem_iff.1 htag
    have h : Orderly (order.map fun tag => (tag, payload tag)).reverse := by
      refine ⟨?_, ?_, ?_⟩
      · simpa [Function.comp_def] using hheads.nodup_iff.2 tags_nodup
      · simpa using hknown
      · simpa using fun tag htag => hplain tag (hknown tag htag)
    refine ⟨_, readSections_eq_ok_iff.2 ⟨h, ?_⟩, fun tag htag => ?_⟩
    · rw [List.reverse_reverse, List.map_map]
      exact hlines
    · rw [h.payload?_eq_some_iff]
      simpa using hheads.mem_iff.2 htag

end Chip8.SaveState
