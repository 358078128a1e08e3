import Chip8.Proofs.SaveState.Acceptance
import Chip8.Proofs.SaveState.Defects
import Chip8.Proofs.Text.Trim

/-!
# Which payloads are refused

The reader of each section refuses a payload exactly if the payload is bad, and reports what is
wrong with it. All readers of lists look at the commas, at the number of entries and at the entries,
in this order (`entries_bind_eq_error_iff`).
-/

namespace Chip8.SaveState

variable {tag : Char} {limit : Nat} {payload : List Char} {e : SaveStateError}

/-! ## Commas -/

/-- What is read from a run of digits depends on what follows it. -/
theorem readRuns_append {run rest : List Char} {c : Char} (hrun : IsRun run)
    (hc : c.isDigit = false) :
    readRuns (run ++ c :: rest) =
      if c ≠ ',' then .error (String.ofList (c :: rest))
      else if rest.head?.any Char.isDigit then consEntry run (readRuns rest)
      else .error (Text.mismatch rest ["digit"]).message := by
  have hstop : ∀ d, (c :: rest).head? = some d → d.isDigit = false := by simpa using hc
  obtain ⟨htake, hdrop⟩ := Text.takeWhile_append_of_stop hrun.2 hstop
  rw [readRuns]
  split
  · next hnil =>
    rw [hdrop] at hnil
    cases hnil
  · next d tail htail =>
    rw [hdrop] at htail
    obtain ⟨rfl, rfl⟩ := List.cons.inj htail
    rw [htake]

theorem readRuns_of_stuck {run rest : List Char} {told : String} (hrun : IsRun run)
    (h : Stuck rest told) : readRuns (run ++ rest) = .error told := by
  cases h with
  | other hc hcomma => rw [readRuns_append hrun hc, if_pos hcomma]
  | comma hrest =>
    rw [readRuns_append hrun (by decide), if_neg (by simp), hrest]
    rfl

theorem head?_joined {entries : List (List Char)} (hne : entries ≠ [])
    (hruns : ∀ e ∈ entries, IsRun e) (rest : List Char) :
    (commaJoin entries ++ rest).head?.any Char.isDigit = true := by
  obtain ⟨entry, others, rfl⟩ := List.exists_cons_of_ne_nil hne
  have hhead := (hruns entry List.mem_cons_self).head?_commaJoin others
  rwa [Text.head?_append_left]
  intro hnil
  simp [hnil] at hhead

/-- Entries that come before do not matter. -/
theorem readRuns_commaJoin_append {rest : List Char} {told : String} (h : Stuck rest told)
    {entries : List (List Char)} (hne : entries ≠ []) (hruns : ∀ e ∈ entries, IsRun e) :
    readRuns (commaJoin entries ++ rest) = .error told := by
  induction entries with
  | nil => exact absurd rfl hne
  | cons entry entries ih =>
    obtain ⟨hentry, hothers⟩ := List.forall_mem_cons.1 hruns
    cases entries with
    | nil =>
      rw [commaJoin_singleton]
      exact readRuns_of_stuck hentry h
    | cons other entries =>
      have hne' := List.cons_ne_nil other entries
      rw [commaJoin_cons_cons, List.append_assoc, List.cons_append,
        readRuns_comma hentry (head?_joined hne' hothers rest), ih hne' hothers]
      rfl

theorem eq_append_of_dropWhile {text rest : List Char} {c : Char}
    (h : text.dropWhile Char.isDigit = c :: rest) :
    text = text.takeWhile Char.isDigit ++ c :: rest ∧ c.isDigit = false := by
  refine ⟨?_, Text.head_dropWhile (congrArg List.head? h)⟩
  rw [← h, List.takeWhile_append_dropWhile]

/-- A text that starts with a digit and is not read as a list is stuck after some entries. -/
theorem stuck_of_readRuns {text : List Char} {told : String}
    (hhead : text.head?.any Char.isDigit = true) (h : readRuns text = .error told) :
    ∃ entries rest, text = commaJoin entries ++ rest ∧ entries ≠ [] ∧
      (∀ e ∈ entries, IsRun e) ∧ Stuck rest told := by
  have hrun := isRun_takeWhile hhead
  fun_induction readRuns text with
  | case1 text hdrop => cases h
  | case2 text c rest hdrop _ hcomma =>
    obtain ⟨htext, hc⟩ := eq_append_of_dropWhile hdrop
    obtain rfl := Except.error.inj h
    exact ⟨[text.takeWhile Char.isDigit], c :: rest, by rwa [commaJoin_singleton], by simp,
      by simpa using hrun, .other hc hcomma⟩
  | case3 text c rest hdrop _ hcomma hdigit ih =>
    obtain ⟨htext, -⟩ := eq_append_of_dropWhile hdrop
    rw [Decidable.not_not] at hcomma
    subst hcomma
    -- A complaint about what follows the comma is passed on as it is.
    have hrest : readRuns rest = .error told := by
      cases hread : readRuns rest with
      | error told' =>
        rw [hread] at h
        exact h
      | ok entries =>
        rw [hread] at h
        cases h
    obtain ⟨entries, tail, rfl, hne, hruns, hstuck⟩ := ih hdigit hrest (isRun_takeWhile hdigit)
    obtain ⟨other, others, rfl⟩ := List.exists_cons_of_ne_nil hne
    refine ⟨text.takeWhile Char.isDigit :: other :: others, tail, ?_, by simp,
      List.forall_mem_cons.2 ⟨hrun, hruns⟩, hstuck⟩
    rwa [commaJoin_cons_cons, List.append_assoc, List.cons_append]
  | case4 text c rest hdrop _ hcomma hdigit =>
    obtain ⟨htext, -⟩ := eq_append_of_dropWhile hdrop
    rw [Decidable.not_not] at hcomma
    subst hcomma
    obtain rfl := Except.error.inj h
    exact ⟨[text.takeWhile Char.isDigit], ',' :: rest, by rwa [commaJoin_singleton], by simp,
      by simpa using hrun, .comma (by simpa using hdigit)⟩

/-- **Commas.** A payload that is no list is told from the place where it stops to be one. -/
theorem splitEntries_eq_error_iff {told : String} :
    splitEntries payload = .error told ↔ Unlisted payload told := by
  constructor
  · intro h
    rw [splitEntries] at h
    split at h
    · cases h
    · next hne =>
      split at h
      · next hhead =>
        obtain ⟨entries, rest, rfl, hentries, hruns, hstuck⟩ := stuck_of_readRuns hhead h
        exact .stuck hentries ⟨rfl, hruns⟩ hstuck
      · next hhead =>
        obtain ⟨c, rest, rfl⟩ := List.exists_cons_of_ne_nil hne
        obtain rfl := Except.error.inj h
        exact .start (by simpa using hhead)
  · intro h
    cases h with
    | start hc => simp [splitEntries, hc]
    | @stuck payload rest entries told hne hjoins hstuck =>
      obtain ⟨rfl, hruns⟩ := hjoins
      have hhead := head?_joined hne hruns rest
      have hne' : commaJoin entries ++ rest ≠ [] := by
        intro hnil
        simp [hnil] at hhead
      rw [splitEntries, if_neg hne', if_pos hhead, readRuns_commaJoin_append hstuck hne hruns]

theorem readEntries_eq_error_iff :
    readEntries tag payload = .error e ↔
      ∃ told, Unlisted payload told ∧ e = .badValue tag told := by
  rw [readEntries, mapError_eq_error_iff]
  simp only [splitEntries_eq_error_iff, eq_comm (b := e)]

/-! ## Lists -/

variable {β : Type} {count? : Option Nat} {Bad : List Char → SaveStateError → Prop}

/-- **Lists.** A reader that looks at the number of entries and then at the entries, once it has
them, refuses the bad lists. -/
theorem entries_bind_eq_error_iff {read : List (List Char) → Except SaveStateError β}
    (hread : ∀ {entries}, read entries = .error e ↔
      (∃ count, count? = some count ∧ entries.length ≠ count ∧
        e = .wrongLength tag entries.length count) ∨
      (∀ count, count? = some count → entries.length = count) ∧ FirstFault Bad entries e) :
    (readEntries tag payload >>= read) = .error e ↔ BadList tag count? Bad payload e := by
  simp only [bind_eq_error_iff, readEntries_eq_error_iff, readEntries_eq_ok_iff, hread]
  constructor
  · rintro (⟨told, htold, rfl⟩ | ⟨entries, hjoins, ⟨count, hcount, hne, rfl⟩ | ⟨hcount, hfault⟩⟩)
    · exact .unlisted htold
    · exact .length hjoins hcount hne
    · exact .entry hjoins hcount hfault
  · intro h
    cases h with
    | unlisted htold => exact .inl ⟨_, htold, rfl⟩
    | length hjoins hcount hne => exact .inr ⟨_, hjoins, .inl ⟨_, hcount, hne, rfl⟩⟩
    | entry hjoins hcount hfault => exact .inr ⟨_, hjoins, .inr ⟨hcount, hfault⟩⟩

theorem tooLarge_iff {entry : List Char} :
    TooLarge tag limit entry e ↔
      limit < value entry ∧ e = .badValue tag (String.ofList entry) := by
  constructor
  · rintro ⟨hlarge⟩
    exact ⟨hlarge, rfl⟩
  · rintro ⟨hlarge, rfl⟩
    exact .mk hlarge

theorem readValues_eq_error_iff {entries : List (List Char)} :
    readValues tag limit entries = .error e ↔ FirstFault (TooLarge tag limit) entries e := by
  have hsound : ∀ entry, (∀ e', ¬TooLarge tag limit entry e') ↔ (!!fits limit entry) = true := by
    intro entry
    simp [fits, tooLarge_iff]
  constructor
  · intro h
    rw [readValues] at h
    split at h
    · next entry hentry =>
      obtain ⟨hlarge, before, after, rfl, hbefore⟩ := List.find?_eq_some_iff_append.1 hentry
      obtain rfl := Except.error.inj h
      exact ⟨before, entry, after, rfl, fun b hb => (hsound b).2 (hbefore b hb),
        .mk (by simpa [fits] using hlarge)⟩
    · cases h
  · rintro ⟨before, entry, after, rfl, hbefore, hentry⟩
    obtain ⟨hlarge, rfl⟩ := tooLarge_iff.1 hentry
    have hfind : (before ++ entry :: after).find? (!fits limit ·) = some entry :=
      List.find?_eq_some_iff_append.2
        ⟨by simpa [fits] using hlarge, before, after, rfl, fun b hb => (hsound b).1 (hbefore b hb)⟩
    rw [readValues, hfind]

theorem readList_eq_error_iff :
    readList tag limit payload = .error e ↔ BadList tag none (TooLarge tag limit) payload e := by
  rw [readList]
  refine entries_bind_eq_error_iff fun {entries} => ?_
  rw [readValues_eq_error_iff]
  simp

theorem readCounted_eq_error_iff {count : Nat} :
    readCounted tag limit count payload = .error e ↔
      BadList tag (some count) (TooLarge tag limit) payload e := by
  rw [readCounted]
  refine entries_bind_eq_error_iff fun {entries} => ?_
  split
  · next hcount => simp [map_eq_error_iff, readValues_eq_error_iff, hcount]
  · next hcount => simp [hcount]

theorem readNumber_eq_error_iff :
    readNumber tag limit payload = .error e ↔
      BadList tag (some 1) (TooLarge tag limit) payload e := by
  rw [readNumber, map_eq_error_iff, readCounted_eq_error_iff]

theorem readBytes_eq_error_iff {count : Nat} :
    readBytes tag count payload = .error e ↔
      BadList tag (some count) (TooLarge tag 255) payload e := by
  rw [readBytes, map_eq_error_iff, readCounted_eq_error_iff]

theorem readRow_eq_error_iff {row : List Char} : readRow row = .error e ↔ BadRow row e := by
  have hdigits : row.all isPixelDigit = false ↔ ∃ c ∈ row, c ≠ '0' ∧ c ≠ '1' := by
    simp [isPixelDigit]
  constructor
  · intro h
    rw [readRow] at h
    split at h
    · next hlength =>
      obtain rfl := Except.error.inj h
      exact .length hlength
    · next hlength =>
      rw [Decidable.not_not] at hlength
      split at h
      · cases h
      · next hall =>
        obtain rfl := Except.error.inj h
        exact .digit hlength (hdigits.1 (by simpa using hall))
  · intro h
    cases h with
    | length hlength => exact if_pos hlength
    | digit hlength hdigit =>
      have hall : ¬row.all isPixelDigit = true := by
        rw [hdigits.2 hdigit]
        decide
      have hwidth : ¬row.length ≠ Screen.width := not_not_intro hlength
      rw [readRow, if_neg hwidth, if_neg hall]

theorem readScreen_eq_error_iff :
    readScreen payload = .error e ↔ BadList 's' (some 32) BadRow payload e := by
  rw [readScreen]
  refine entries_bind_eq_error_iff fun {rows} => ?_
  have hheight : Screen.height = 32 := rfl
  split
  · next hcount =>
    rw [hheight] at hcount
    simp [hcount, hheight]
  · next hcount =>
    rw [Decidable.not_not, hheight] at hcount
    simp [map_eq_error_iff, mapM_eq_error_iff readRow_eq_error_iff, hcount]

/-! ## Each section -/

theorem readVersion_eq_error_iff :
    readVersion payload = .error e ↔ BadPayload payload 'v' e := by
  have hversion : Numeral.decimal version = ['1'] := by decide
  rw [readVersion, hversion]
  constructor
  · intro h
    split at h
    · cases h
    · next hne =>
      obtain rfl := Except.error.inj h
      exact .version hne
  · intro h
    cases h with
    | version hne => rw [if_neg hne]
    | numbers hmem _ => simp [numberSections] at hmem

theorem not_badPayload_trace : ¬BadPayload payload 'o' e := by
  intro h
  cases h with
  | numbers hmem _ => simp [numberSections] at hmem

theorem numberSections_functional :
    ∀ s ∈ numberSections, ∀ s' ∈ numberSections, s.1 = s'.1 → s = s' := by
  decide

/-- A section of numbers is bad as a list, but for the limit of the cycle counter. -/
theorem badPayload_iff (h : (tag, limit, count?) ∈ numberSections) (htag : tag ≠ 'c') :
    BadPayload payload tag e ↔ BadList tag count? (TooLarge tag limit) payload e := by
  constructor
  · intro hbad
    cases hbad with
    | version hne => simp [numberSections] at h
    | numbers hmem hlist =>
      obtain ⟨rfl, rfl⟩ : _ = limit ∧ _ = count? := by
        simpa using numberSections_functional _ hmem _ h rfl
      exact hlist
    | cycles => exact absurd rfl htag
    | screen hlist => simp [numberSections] at h
  · exact .numbers h

theorem readCycles_eq_error_iff :
    readCycles payload = .error e ↔ BadPayload payload 'c' e := by
  simp only [readCycles, bind_eq_error_iff, readNumber_eq_error_iff, readNumber_eq_ok_iff]
  constructor
  · rintro (hlist | ⟨n, ⟨hdenotes, hlimit⟩, h⟩)
    · exact .numbers (by simp [numberSections]) hlist
    · split at h
      · simp at h
      · next hn =>
        obtain rfl := throw_eq_error_iff.1 h
        exact .cycles hdenotes (Nat.lt_of_not_le hn) hlimit
  · intro h
    cases h with
    | numbers hmem hlist =>
      obtain ⟨rfl, rfl⟩ : _ = 4294967295 ∧ _ = some 1 := by
        simpa [numberSections] using hmem
      exact .inl hlist
    | @cycles n hdenotes hn hlimit =>
      exact .inr ⟨n, ⟨hdenotes, hlimit⟩, if_neg (Nat.not_le.2 hn)⟩

theorem badPayload_screen_iff :
    BadPayload payload 's' e ↔ BadList 's' (some 32) BadRow payload e := by
  constructor
  · intro h
    cases h with
    | numbers hmem _ => simp [numberSections] at hmem
    | screen hlist => exact hlist
  · exact .screen

end Chip8.SaveState
