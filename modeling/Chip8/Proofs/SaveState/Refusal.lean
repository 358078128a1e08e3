import Chip8.Proofs.SaveState.Payload

/-!
# The reader reports the first defect

The lines are looked at one after the other, and then the sections. Each look refuses exactly what
is bad there (`readSection_eq_error_iff`, `addLine_eq_error_iff`, `take_bind_eq_error_iff`), so the
first bad thing decides.

**Theorem (`ofText_eq_error_iff`).** A text is refused with an error exactly when this is the one
that is to be reported of it.
-/

namespace Chip8.SaveState

variable {e : SaveStateError}

/-! ## One section -/

theorem isTagChar_iff {c : Char} : isTagChar c = true ↔ IsTag c := by
  simp [isTagChar, IsTag]

theorem readSection_of_not_tag {line : List Char} (h : ∀ c, line.head? = some c → ¬IsTag c) :
    readSection line = .error (.mismatch ⟨line.head?, ["section tag"]⟩) := by
  cases line with
  | nil => rfl
  | cons c line =>
    have hc : isTagChar c = false := by
      rw [← Bool.not_eq_true, isTagChar_iff]
      exact h c rfl
    simp [readSection, hc, Text.mismatch]

theorem readSection_of_not_opening {tag : Char} {rest : List Char} (htag : IsTag tag)
    (h : rest.head? ≠ some '{') :
    readSection (tag :: rest) = .error (.mismatch ⟨rest.head?, ["'\x7b'"]⟩) := by
  simp only [readSection, isTagChar_iff.2 htag, Bool.not_true, Bool.false_eq_true, if_false]
  split
  · exact absurd rfl h
  · rfl

/-- The payload ends at the first brace, and what follows it closes the section or does not. -/
theorem readSection_of_opening {tag : Char} {payload rest : List Char} (htag : IsTag tag)
    (h : Plain payload) (hrest : ∀ c, rest.head? = some c → isPayloadChar c = false) :
    readSection (tag :: '{' :: (payload ++ rest)) = closeSection tag payload rest := by
  obtain ⟨htake, hdrop⟩ := Text.takeWhile_append_of_stop (plain_iff.1 h) hrest
  simp [readSection, isTagChar_iff.2 htag, htake, hdrop]

theorem closeSection_of_not_closing {tag : Char} {payload rest : List Char}
    (h : rest.head? ≠ some '}') :
    closeSection tag payload rest = .error (.mismatch ⟨rest.head?, ["'\x7d'"]⟩) := by
  unfold closeSection
  split
  · exact absurd rfl h
  · exact absurd rfl h
  · rfl

theorem closeSection_of_leftover {tag : Char} {payload rest : List Char} (h : rest ≠ []) :
    closeSection tag payload ('}' :: rest) = .error (.leftover rest) := by
  cases rest with
  | nil => exact absurd rfl h
  | cons c rest => rfl

theorem readSection_of_misread {line : List Char} {cause : SectionError}
    (h : Misread line cause) : readSection line = .error cause := by
  cases h with
  | tag hline => exact readSection_of_not_tag hline
  | opening htag hrest => exact readSection_of_not_opening htag hrest
  | @closing tag payload rest htag hplain hrest =>
    have hstop : ∀ c, rest.head? = some c → isPayloadChar c = false := by
      rintro c hc
      rcases hrest with rfl | hbrace
      · cases hc
      · rw [hc] at hbrace
        obtain rfl := Option.some.inj hbrace
        rfl
    rw [readSection_of_opening htag hplain hstop, closeSection_of_not_closing]
    rcases hrest with rfl | hbrace
    · simp
    · simp [hbrace]
  | @leftover tag payload rest htag hplain hrest =>
    have hline : sectionText tag payload ++ rest = tag :: '{' :: (payload ++ '}' :: rest) := by
      simp [sectionText]
    rw [hline, readSection_of_opening htag hplain (by simp [isPayloadChar]),
      closeSection_of_leftover hrest]

theorem misread_of_closeSection {tag : Char} {payload rest : List Char} {cause : SectionError}
    (htag : IsTag tag) (hplain : Plain payload)
    (hrest : ∀ c, rest.head? = some c → isPayloadChar c = false)
    (h : closeSection tag payload rest = .error cause) :
    Misread (tag :: '{' :: (payload ++ rest)) cause := by
  by_cases hclosing : rest.head? = some '}'
  · obtain ⟨more, rfl⟩ := List.head?_eq_some_iff.1 hclosing
    have hmore : more ≠ [] := by
      rintro rfl
      cases h
    rw [closeSection_of_leftover hmore] at h
    obtain rfl := Except.error.inj h
    simpa [sectionText] using Misread.leftover htag hplain hmore
  · rw [closeSection_of_not_closing hclosing] at h
    obtain rfl := Except.error.inj h
    refine .closing htag hplain ?_
    cases rest with
    | nil => exact .inl rfl
    | cons c rest =>
      have hbrace := hrest c rfl
      have hc : c ≠ '}' := fun hc => hclosing (congrArg some hc)
      exact .inr (by simpa [isPayloadChar, hc] using hbrace)

theorem misread_of_readSection {line : List Char} {cause : SectionError}
    (h : readSection line = .error cause) : Misread line cause := by
  by_cases hline : ∃ tag rest, line = tag :: rest ∧ IsTag tag
  · obtain ⟨tag, rest, rfl, htag⟩ := hline
    by_cases hopening : rest.head? = some '{'
    · obtain ⟨text, rfl⟩ := List.head?_eq_some_iff.1 hopening
      have hplain : Plain (text.takeWhile isPayloadChar) :=
        plain_iff.2 (List.all_eq_true.1 List.all_takeWhile)
      have hrest : ∀ c, (text.dropWhile isPayloadChar).head? = some c → isPayloadChar c = false :=
        fun _ => Text.head_dropWhile
      rw [← List.takeWhile_append_dropWhile (p := isPayloadChar) (l := text)] at h ⊢
      rw [readSection_of_opening htag hplain hrest] at h
      exact misread_of_closeSection htag hplain hrest h
    · rw [readSection_of_not_opening htag hopening] at h
      obtain rfl := Except.error.inj h
      exact .opening htag hopening
  · have hnot : ∀ c, line.head? = some c → ¬IsTag c := by
      intro c hc htag
      obtain ⟨rest, rfl⟩ := List.head?_eq_some_iff.1 hc
      exact hline ⟨c, rest, rfl, htag⟩
    rw [readSection_of_not_tag hnot] at h
    obtain rfl := Except.error.inj h
    exact .tag hnot

/-- **One section.** A line is refused where it stops to be a section. -/
theorem readSection_eq_error_iff {line : List Char} {cause : SectionError} :
    readSection line = .error cause ↔ Misread line cause :=
  ⟨misread_of_readSection, readSection_of_misread⟩

/-! ## Lines -/

theorem isTag_of_readSection {tag : Char} {payload : List Char}
    (h : readSection (sectionText tag payload) = .ok (tag, payload)) : IsTag tag := by
  by_contra htag
  have hnot : ∀ c, (sectionText tag payload).head? = some c → ¬IsTag c := by
    rintro c hc
    obtain rfl := Option.some.inj hc
    exact htag
  rw [readSection_of_not_tag hnot] at h
  cases h

/-- **One line.** A line is refused exactly if it is bad after the sections found before it. -/
theorem addLine_eq_error_iff {found : List (Char × List Char)} {number : Nat}
    {line : List Char} :
    addLine found number line = .error e ↔ BadLine found number line e := by
  constructor
  · intro h
    rw [addLine] at h
    split at h
    · cases h
    next hline =>
    split at h
    · next cause hread =>
      obtain rfl := Except.error.inj h
      exact .malformed hline (readSection_eq_error_iff.1 hread)
    next tag payload hread =>
    obtain ⟨rfl, hplain⟩ := eq_of_readSection hread
    split at h
    · next hknown =>
      obtain rfl := Except.error.inj h
      exact .unknown (isTag_of_readSection hread) hplain hknown
    next hknown =>
    rw [Decidable.not_not] at hknown
    split at h
    · next hfound =>
      obtain rfl := Except.error.inj h
      exact .duplicate hknown hplain (payload?_isSome_iff.1 hfound)
    · cases h
  · intro h
    cases h with
    | malformed hline hmisread =>
      rw [addLine, if_neg hline, readSection_eq_error_iff.2 hmisread]
    | unknown htag hplain hknown =>
      rw [addLine, if_neg (sectionText_ne_nil _ _),
        readSection_sectionText (isTagChar_iff.2 htag) hplain]
      exact if_pos hknown
    | duplicate hknown hplain hfound =>
      rw [addLine, if_neg (sectionText_ne_nil _ _),
        readSection_sectionText (isTagChar_of_mem hknown) hplain]
      simp [hknown, payload?_isSome_iff.2 hfound]

theorem addLines_eq_error_iff {found : List (Char × List Char)} {number : Nat}
    {ls : List (List Char)} :
    addLines found number ls = .error e ↔
      ∃ before line after found', ls = before ++ line :: after ∧
        addLines found number before = .ok found' ∧
        BadLine found' (number + before.length) line e := by
  induction ls generalizing found number with
  | nil => simp [addLines]
  | cons line ls ih =>
    rw [addLines]
    constructor
    · intro h
      split at h
      · next e' hadd =>
        obtain rfl := Except.error.inj h
        exact ⟨[], line, ls, found, rfl, rfl, addLine_eq_error_iff.1 hadd⟩
      · next found₁ hadd =>
        obtain ⟨before, bad, after, found', rfl, hbefore, hbad⟩ := ih.1 h
        refine ⟨line :: before, bad, after, found', rfl, by rwa [addLines, hadd], ?_⟩
        rwa [List.length_cons, Nat.add_comm before.length, ← Nat.add_assoc]
    · rintro ⟨before, bad, after, found', hls, hbefore, hbad⟩
      cases before with
      | nil =>
        obtain ⟨rfl, rfl⟩ := List.cons.inj hls
        obtain rfl := Except.ok.inj hbefore
        have hadd : addLine found number line = .error e := addLine_eq_error_iff.2 hbad
        rw [hadd]
      | cons line' before =>
        obtain ⟨rfl, rfl⟩ := List.cons.inj hls
        rw [addLines] at hbefore
        split at hbefore
        · cases hbefore
        · next found₁ hadd =>
          refine ih.2 ⟨before, bad, after, found', rfl, hbefore, ?_⟩
          rwa [List.length_cons, Nat.add_comm before.length, ← Nat.add_assoc] at hbad

/-! ## The sections of a text -/

theorem Orderly.reverse {found : List (Char × List Char)} (h : Orderly found) :
    Orderly found.reverse := by
  refine ⟨?_, ?_, ?_⟩
  · rw [List.map_reverse, List.nodup_reverse]
    exact h.nodup
  · simpa only [List.mem_reverse] using h.known
  · simpa only [List.mem_reverse] using h.plain

/-- The reader has the sections of the lines in its hands, the last one in front. -/
theorem addLines_nil_eq_ok_iff {found : List (Char × List Char)} {number : Nat}
    {ls : List (List Char)} :
    addLines [] number ls = .ok found ↔ Sections ls found.reverse := by
  rw [addLines_eq_ok_iff orderly_nil]
  constructor
  · rintro ⟨h, added, rfl, hadded⟩
    rw [List.append_nil] at h ⊢
    exact ⟨h.reverse, by rwa [List.reverse_reverse]⟩
  · rintro ⟨h, hlines⟩
    exact ⟨found.reverse_reverse ▸ h.reverse, found.reverse, by simp, hlines⟩

/-- What is bad about a line depends on the tags before it, not on their order. -/
theorem BadLine.of_subset {found found' : List (Char × List Char)} {number : Nat}
    {line : List Char} (hsubset : found.map Prod.fst ⊆ found'.map Prod.fst)
    (h : BadLine found number line e) : BadLine found' number line e := by
  cases h with
  | malformed hline hmisread => exact .malformed hline hmisread
  | unknown htag hplain hknown => exact .unknown htag hplain hknown
  | duplicate hknown hplain hfound => exact .duplicate hknown hplain (hsubset hfound)

/-- **Lines.** The first bad line of a text decides, whatever stands after it. -/
theorem readSections_eq_error_iff {text : List Char} :
    readSections text = .error e ↔
      ∃ before line after found, Text.lines text = before ++ line :: after ∧
        Sections before found ∧ BadLine found (before.length + 1) line e := by
  rw [readSections, addLines_eq_error_iff]
  simp only [addLines_nil_eq_ok_iff, Nat.add_comm 1]
  constructor
  · rintro ⟨before, line, after, found, hlines, hfound, hbad⟩
    exact ⟨before, line, after, found.reverse, hlines, hfound, hbad.of_subset (by simp)⟩
  · rintro ⟨before, line, after, found, hlines, hfound, hbad⟩
    exact ⟨before, line, after, found.reverse, hlines, by rwa [List.reverse_reverse],
      hbad.of_subset (by simp)⟩

/-! ## The payloads of a text -/

theorem take_eq_error_iff {found : List (Char × List Char)} {tag : Char} :
    take found tag = .error e ↔ tag ∉ found.map Prod.fst ∧ e = .missingSection tag := by
  rw [← payload?_isSome_iff, take]
  split
  · next hfound => simp [hfound]
  · next hfound => simp [hfound, eq_comm]

section Taking

variable {found : List (Char × List Char)} {tag : Char} {rest : List Char} {α β : Type}

theorem take_bind_eq_error_iff (h : Orderly found) (read : List Char → Except SaveStateError α)
    (hread : ∀ {payload e}, read payload = .error e ↔ BadPayload payload tag e) :
    (take found tag >>= read) = .error e ↔ Lacking found tag e := by
  simp only [bind_eq_error_iff, take_eq_error_iff, take_eq_ok_iff, h.payload?_eq_some_iff, hread]
  constructor
  · rintro (⟨hmissing, rfl⟩ | ⟨payload, hmem, hbad⟩)
    · exact .missing hmissing
    · exact .payload hmem hbad
  · intro hlacking
    cases hlacking with
    | missing hmissing => exact .inl ⟨hmissing, rfl⟩
    | payload hmem hbad => exact .inr ⟨_, hmem, hbad⟩

/-- If the rest looks for the first of the remaining sections that is lacking, one section in
front of it is looked at before them. -/
theorem take_bind_bind_eq_error_iff (h : Orderly found)
    (read : List Char → Except SaveStateError α) {f : α → Except SaveStateError β}
    (hread : ∀ {payload e}, read payload = .error e ↔ BadPayload payload tag e)
    (hrest : ∀ a, f a = .error e ↔ FirstFault (Lacking found) rest e) :
    (take found tag >>= fun payload => read payload >>= f) = .error e ↔
      FirstFault (Lacking found) (tag :: rest) e := by
  have hsound : (∃ a, (take found tag >>= read) = .ok a) ↔ ∀ e', ¬Lacking found tag e' := by
    simp only [exists_ok_iff, ne_eq, take_bind_eq_error_iff h read hread]
  rw [← bind_assoc, bind_eq_error_iff, firstFault_cons, take_bind_eq_error_iff h read hread, ← hsound]
  simp only [hrest, exists_and_right]

end Taking

/-- **Payloads.** The first section that is missing or has a bad payload decides. -/
theorem ofSections_eq_error_iff {found : List (Char × List Char)} (h : Orderly found) :
    ofSections found = .error e ↔ FirstFault (Lacking found) tags e := by
  -- The readers of numbers, each with its tag, refuse the bad payloads of that tag.
  have hbad : ∀ {tag limit count? payload e'}, (tag, limit, count?) ∈ numberSections → tag ≠ 'c' →
      (BadList tag count? (TooLarge tag limit) payload e' ↔ BadPayload payload tag e') :=
    fun hmem htag => (badPayload_iff hmem htag).symm
  have htrace : ∀ {payload e'}, (.ok payload : Except SaveStateError (List Char)) = .error e' ↔
      BadPayload payload 'o' e' :=
    iff_of_false (by simp) not_badPayload_trace
  refine take_bind_bind_eq_error_iff h readVersion readVersion_eq_error_iff fun _ => ?_
  refine take_bind_bind_eq_error_iff h readCycles readCycles_eq_error_iff fun _ => ?_
  refine take_bind_bind_eq_error_iff h Except.ok htrace fun _ => ?_
  refine take_bind_bind_eq_error_iff h (readBytes 'm' Memory.size)
    (readBytes_eq_error_iff.trans (hbad (by decide) (by decide))) fun _ => ?_
  refine take_bind_bind_eq_error_iff h readScreen
    (readScreen_eq_error_iff.trans badPayload_screen_iff.symm) fun _ => ?_
  refine take_bind_bind_eq_error_iff h (readBytes 'r' 16)
    (readBytes_eq_error_iff.trans (hbad (by decide) (by decide))) fun _ => ?_
  refine take_bind_bind_eq_error_iff h (readNumber 'a' 65535)
    (readNumber_eq_error_iff.trans (hbad (by decide) (by decide))) fun _ => ?_
  refine take_bind_bind_eq_error_iff h (readNumber 'p' 65535)
    (readNumber_eq_error_iff.trans (hbad (by decide) (by decide))) fun _ => ?_
  refine take_bind_bind_eq_error_iff h (readList 'k' 65535)
    (readList_eq_error_iff.trans (hbad (by decide) (by decide))) fun _ => ?_
  refine take_bind_bind_eq_error_iff h (readNumber 'd' 255)
    (readNumber_eq_error_iff.trans (hbad (by decide) (by decide))) fun _ => ?_
  refine take_bind_bind_eq_error_iff h (readNumber 't' 255)
    (readNumber_eq_error_iff.trans (hbad (by decide) (by decide))) fun _ => ?_
  refine take_bind_bind_eq_error_iff h (readBytes 'i' 16)
    (readBytes_eq_error_iff.trans (hbad (by decide) (by decide))) fun _ => ?_
  exact iff_of_false not_pure_eq_error not_firstFault_nil

/-! ## The whole text -/

theorem Lacking.of_perm {found found' : List (Char × List Char)} {tag : Char}
    (hperm : found.Perm found') (h : Lacking found tag e) : Lacking found' tag e := by
  cases h with
  | missing hmissing => exact .missing (mt (hperm.map Prod.fst).mem_iff.2 hmissing)
  | payload hmem hbad => exact .payload (hperm.mem_iff.1 hmem) hbad

theorem lacking_reverse (found : List (Char × List Char)) :
    Lacking found.reverse = Lacking found := by
  funext tag e
  exact propext ⟨.of_perm found.reverse_perm, .of_perm found.reverse_perm.symm⟩

/-- **Refusal.** A text is refused with an error exactly when this is the one that is to be
reported of it. -/
theorem ofText_eq_error_iff (text : String) (e : SaveStateError) :
    ofText text = .error e ↔ Refused text.toList e := by
  rw [ofText, read, bind_eq_error_iff, readSections_eq_error_iff]
  simp only [readSections, addLines_nil_eq_ok_iff]
  constructor
  · rintro (⟨before, line, after, found, hlines, hfound, hbad⟩ | ⟨found, hfound, hfault⟩)
    · exact .line (Text.lines_eq_iff.1 hlines) hfound hbad
    · have h : Orderly found := found.reverse_reverse ▸ hfound.1.reverse
      rw [ofSections_eq_error_iff h, ← lacking_reverse] at hfault
      exact .lacking (Text.lines_eq_iff.1 rfl) hfound hfault
  · intro hrefused
    cases hrefused with
    | line hcut hfound hbad => exact .inl ⟨_, _, _, _, Text.lines_eq_iff.2 hcut, hfound, hbad⟩
    | @lacking ls found e hcut hfound hfault =>
      rw [← lacking_reverse, ← ofSections_eq_error_iff hfound.1.reverse] at hfault
      refine .inr ⟨found.reverse, ?_, hfault⟩
      rwa [Text.lines_eq_iff.2 hcut, List.reverse_reverse]

end Chip8.SaveState
