import Chip8.KeyConfig.File
import Chip8.Proofs.KeyConfig.Reading
import Chip8.Proofs.SaveState.Refusal
import Chip8.Proofs.Text.OneLine

/-!
# Messages on one line

An error of a reader goes into one line of a log, whatever the text is that was refused. What its
message quotes is part of a single line of the text, so no newline is quoted.

**Theorem (`errors_on_one_line`).** This holds of every save state that is refused, of every key
configuration that is refused, and of every line that is skipped in one that is read.
-/

namespace Chip8

open Text (OneLine)

/-! ## What errors quote -/

/-- The parts of the message that are not fixed texts or numbers. -/
@[simp] def SaveStateError.quotes : SaveStateError → List (List Char)
  | malformed _ e => [e.message.toList]
  | unknownSection tag => [[tag]]
  | missingSection tag => [[tag]]
  | duplicateSection tag => [[tag]]
  | wrongLength tag _ _ => [[tag]]
  | badValue tag value => [[tag], value.toList]
  | unsupportedVersion version => [version]

/-- Nothing but what it quotes can break the line of a message. -/
@[simp] theorem SaveStateError.oneLine_message (e : SaveStateError) :
    OneLine e.message.toList ↔ ∀ piece ∈ e.quotes, OneLine piece := by
  unfold message
  split <;> simp

/-- The parts of the message that are not fixed texts. -/
@[simp] def ConfigError.quotes : ConfigError → List (List Char)
  | frame => []
  | mismatch e => [e.message.toList]
  | leftover rest => [rest]
  | unknownKey e => [e.name]

@[simp] theorem ConfigError.oneLine_malformed {detail : String} :
    OneLine (malformed detail).toList ↔ OneLine detail.toList := by
  unfold malformed
  simp

@[simp] theorem UnknownKey.oneLine_message (e : UnknownKey) :
    OneLine e.message.toList ↔ OneLine e.name := by
  unfold message
  simp

@[simp] theorem ConfigError.oneLine_message (e : ConfigError) :
    OneLine e.message.toList ↔ ∀ piece ∈ e.quotes, OneLine piece := by
  have hframe : OneLine KeyConfig.header ∧ OneLine KeyConfig.footer := by decide
  unfold message
  split <;> simp [hframe]

/-! ## Save states -/

namespace SaveState

theorem oneLine_sectionText {tag : Char} {payload : List Char} :
    OneLine (sectionText tag payload) ↔ tag ≠ '\n' ∧ OneLine payload := by
  simp [sectionText]

theorem Misread.oneLine {line : List Char} {cause : SectionError} (h : Misread line cause)
    (hline : OneLine line) : OneLine cause.message.toList := by
  cases h with
  | tag _ => exact hline.mismatch (by decide)
  | opening _ _ => exact (Text.oneLine_cons.1 hline).2.mismatch (by decide)
  | @closing tag payload rest _ _ _ =>
    have hrest : OneLine rest := by simp_all
    exact hrest.mismatch (by decide)
  | @leftover tag payload rest _ _ _ =>
    have hrest : OneLine rest := (Text.oneLine_append.1 hline).2
    simp [SectionError.message, hrest]

theorem BadLine.oneLine {found : List (Char × List Char)} {number : Nat} {line : List Char}
    {e : SaveStateError} (h : BadLine found number line e) (hline : OneLine line) :
    OneLine e.message.toList := by
  cases h with
  | malformed _ hmisread => simp [hmisread.oneLine hline]
  | unknown _ _ _ => simp [(oneLine_sectionText.1 hline).1]
  | duplicate _ _ _ => simp [(oneLine_sectionText.1 hline).1]

theorem Stuck.oneLine {rest : List Char} {told : String} (h : Stuck rest told)
    (hrest : OneLine rest) : OneLine told.toList := by
  cases h with
  | other _ _ => rwa [String.toList_ofList]
  | comma _ => exact (Text.oneLine_cons.1 hrest).2.mismatch (by decide)

theorem Unlisted.oneLine {payload : List Char} {told : String} (h : Unlisted payload told)
    (hpayload : OneLine payload) : OneLine told.toList := by
  cases h with
  | start _ => rwa [String.toList_ofList]
  | stuck _ _ hstuck => exact hstuck.oneLine (Text.oneLine_append.1 hpayload).2

theorem BadList.oneLine {tag : Char} {count? : Option Nat} {Bad : List Char → SaveStateError → Prop}
    {payload : List Char} {e : SaveStateError} (h : BadList tag count? Bad payload e)
    (htag : tag ≠ '\n') (hpayload : OneLine payload)
    (hbad : ∀ entry e, OneLine entry → Bad entry e → OneLine e.message.toList) :
    OneLine e.message.toList := by
  cases h with
  | unlisted hunlisted => simp [htag, hunlisted.oneLine hpayload]
  | length _ _ _ => simp [htag]
  | entry hjoins _ hfirst =>
    obtain ⟨before, entry, after, rfl, -, hentry⟩ := hfirst
    have hrun : IsRun entry := hjoins.2 entry (by simp)
    exact hbad entry e (Numeral.clean_of_isDigit hrun.2).oneLine hentry

theorem BadPayload.oneLine {payload : List Char} {tag : Char} {e : SaveStateError}
    (h : BadPayload payload tag e) (htag : tag ≠ '\n') (hpayload : OneLine payload) :
    OneLine e.message.toList := by
  cases h with
  | version _ => simp [hpayload]
  | numbers _ hlist =>
    refine hlist.oneLine htag hpayload fun entry e hentry hlarge => ?_
    cases hlarge
    simp [htag, hentry]
  | cycles _ _ _ => simp [htag]
  | screen hlist =>
    refine hlist.oneLine htag hpayload fun row e hrow hbad => ?_
    cases hbad with
    | length _ => simp [htag]
    | digit _ _ => simp [htag, hrow]

theorem Lacking.oneLine {found : List (Char × List Char)} {tag : Char} {e : SaveStateError}
    (h : Lacking found tag e) (htag : tag ≠ '\n') (hfound : ∀ p ∈ found, OneLine p.2) :
    OneLine e.message.toList := by
  cases h with
  | missing _ => simp [htag]
  | payload hmem hbad => exact hbad.oneLine htag (hfound _ hmem)

/-- Each payload stands on a line of the text. -/
theorem oneLine_of_readSections {text : List Char} {found : List (Char × List Char)}
    (h : readSections text = .ok found) : ∀ p ∈ found, OneLine p.2 := by
  intro p hp
  have hline : sectionText p.1 p.2 ∈ Text.lines text := by
    have hfound : sectionText p.1 p.2 ∈ found.reverse.map fun p => sectionText p.1 p.2 :=
      List.mem_map.2 ⟨p, List.mem_reverse.2 hp, rfl⟩
    rw [← (readSections_eq_ok_iff.1 h).2] at hfound
    exact List.mem_of_mem_filter hfound
  exact (oneLine_sectionText.1 (Text.oneLine_of_mem_lines hline)).2

/-- **Save states.** Of every text that is refused, the message is on one line. -/
theorem oneLine_of_read {text : List Char} {e : SaveStateError} (h : read text = .error e) :
    OneLine e.message.toList := by
  rw [read, bind_eq_error_iff] at h
  rcases h with h | ⟨found, hfound, h⟩
  · obtain ⟨before, line, after, found, hlines, -, hbad⟩ := readSections_eq_error_iff.1 h
    exact hbad.oneLine (Text.oneLine_of_mem_lines (by rw [hlines]; simp))
  · have horderly := (readSections_eq_ok_iff.1 hfound).1
    obtain ⟨before, tag, after, htags, -, hlacking⟩ := (ofSections_eq_error_iff horderly).1 h
    have htag : tag ∈ tags := by
      rw [htags]
      simp
    exact hlacking.oneLine (ne_newline_of_mem htag) (oneLine_of_readSections hfound)

end SaveState

/-! ## Key configurations -/

theorem KeyAction.name_of_read {text : List Char} {e : UnknownKey} (h : read text = .error e) :
    e.name = text := by
  rw [read] at h
  split at h
  · cases h
  split at h
  · cases h
  · obtain rfl := Except.error.inj h
    rfl

namespace KeyConfig

theorem oneLine_of_readValue {text : List Char} {e : ConfigError} (h : readValue text = .error e)
    (htext : OneLine text) : OneLine e.message.toList := by
  have hvalue : OneLine (Text.trimFront text) := htext.trimFront
  rw [readValue] at h
  split at h
  · obtain rfl := Except.error.inj h
    simp [hvalue.mismatch]
  split at h
  · cases h
  · obtain rfl := Except.error.inj h
    have hrest := (hvalue.dropWhile (!Text.isBlank ·)).trimFront
    simpa using hrest

theorem oneLine_of_readPair {line : List Char} {e : ConfigError} (h : readPair line = .error e)
    (hline : OneLine line) : OneLine e.message.toList := by
  have hname : OneLine (Text.trimFront line) := hline.trimFront
  have hrest : OneLine (Text.trimFront ((Text.trimFront line).dropWhile isNameChar)) :=
    (hname.dropWhile isNameChar).trimFront
  simp only [readPair] at h
  split at h
  · obtain rfl := Except.error.inj h
    simp [hname.mismatch]
  split at h
  · next rest hsign =>
    rw [hsign, Text.oneLine_cons] at hrest
    split at h
    · cases h
    · next hvalue =>
      obtain rfl := Except.error.inj h
      exact oneLine_of_readValue hvalue hrest.2
  · obtain rfl := Except.error.inj h
    simp [hrest.mismatch]

/-- **One line.** A line that is refused gives a message on one line. -/
theorem oneLine_of_readBinding {line : List Char} {e : ConfigError}
    (h : readBinding line = .error e) (hline : OneLine line) : OneLine e.message.toList := by
  rw [readBinding] at h
  split at h
  · next hpair =>
    obtain rfl := Except.error.inj h
    exact oneLine_of_readPair hpair hline
  next name value hpair =>
  split at h
  · cases h
  · next cause hread =>
    obtain rfl := Except.error.inj h
    -- The text of the action stands on the line.
    obtain ⟨-, front, before, rest, -, -, hvalue, rfl⟩ := readPair_eq_ok_iff.1 hpair
    obtain ⟨-, -, after, back, -, -, rfl⟩ := readValue_eq_ok_iff.1 hvalue
    have hname : OneLine value := by simp_all
    simpa [KeyAction.name_of_read hread] using hname

theorem oneLine_skippedLine {s : Skipped} :
    OneLine (skippedLine s).text.toList ↔ OneLine s.line ∧ OneLine s.cause.message.toList := by
  unfold skippedLine
  simp

theorem of_skipped? {line : List Char} {s : Skipped} (h : skipped? line = some s) :
    s.line = line ∧ readBinding line = .error s.cause := by
  rw [skipped?] at h
  split at h
  · cases h
  · next e hread =>
    obtain rfl := Option.some.inj h
    exact ⟨rfl, hread⟩

theorem Framed.oneLine {text : List Char} {ls : List (List Char)} (h : Framed text ls) :
    ∀ line ∈ ls, OneLine line := by
  obtain ⟨lines, hcut, hkept⟩ := h
  intro line hline
  exact hkept.oneLine hcut.notMem_newline line (by simp [hline])

/-- **Skipped lines.** Of every line that is skipped, the message is on one line, and so is the
line. -/
theorem oneLine_of_skipped {text : List Char} {r : Reading} (h : read text = .ok r) :
    ∀ s ∈ r.skipped, OneLine s.line ∧ OneLine s.cause.message.toList := by
  rcases read_cases text with ⟨ls, -, hframed, -⟩ | ⟨-, hframe⟩
  · obtain rfl := Except.ok.inj ((read_of_framed hframed).symm.trans h)
    intro s hs
    obtain ⟨line, hline, hskipped⟩ := List.mem_filterMap.1 hs
    obtain ⟨rfl, hread⟩ := of_skipped? hskipped
    have hone := hframed.oneLine _ hline
    exact ⟨hone, oneLine_of_readBinding hread hone⟩
  · cases hframe.symm.trans h

/-- **Key configurations.** The message of a refusal quotes nothing of the text. -/
theorem oneLine_of_read {text : List Char} {e : ConfigError} (h : read text = .error e) :
    OneLine e.message.toList := by
  rcases read_cases text with ⟨ls, -, hframed, -⟩ | ⟨-, hframe⟩
  · cases (read_of_framed hframed).symm.trans h
  · obtain rfl := Except.error.inj (hframe.symm.trans h)
    simp

end KeyConfig

/-- **Errors are on one line.** -/
theorem errors_on_one_line :
    (∀ (text : String) (e : SaveStateError), SaveState.ofText text = .error e →
      OneLine e.message.toList) ∧
    (∀ (text : String) (e : ConfigError), KeyConfig.ofText text = .error e →
      OneLine e.message.toList) ∧
    (∀ (text : String) (r : KeyConfig.Reading), KeyConfig.ofText text = .ok r →
      ∀ s ∈ r.skipped, OneLine s.cause.message.toList ∧
        OneLine (KeyConfig.skippedLine s).text.toList) ∧
    ∀ m : Text.Mismatch, OneLine m.message.toList ↔
      (∀ c, m.found = some c → c ≠ '\n') ∧ ∀ name ∈ m.expected, OneLine name.toList := by
  refine ⟨fun text e h => SaveState.oneLine_of_read h, fun text e h => KeyConfig.oneLine_of_read h,
    fun text r h s hs => ?skipped, fun m => Text.oneLine_message⟩
  case skipped =>
    obtain ⟨hline, hmessage⟩ := KeyConfig.oneLine_of_skipped h s hs
    exact ⟨hmessage, KeyConfig.oneLine_skippedLine.2 ⟨hline, hmessage⟩⟩

end Chip8
