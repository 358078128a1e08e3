import Chip8.Proofs.Except
import Chip8.SaveState.Reader

/-!
# What a payload lists

A payload lists numbers as runs of digits with commas between them; nothing at all lists no
number. Leading zeros do not matter. The reader finds exactly the runs (`splitEntries_eq_ok_iff`)
and reads them as numbers when none is too large (`readList_eq_ok_iff`, `readBytes_eq_ok_iff`,
`readNumber_eq_ok_iff`).
-/

namespace Chip8.SaveState

def IsRun (entry : List Char) : Prop :=
  entry ≠ [] ∧ ∀ c ∈ entry, c.isDigit = true

/-- The payload is a list of runs of digits that stand for these numbers. -/
def Lists (payload : List Char) (ns : List Nat) : Prop :=
  ∃ entries, payload = commaJoin entries ∧ (∀ e ∈ entries, IsRun e) ∧ entries.map value = ns

/-- The payload is one run of digits that stands for a number. -/
def Denotes (payload : List Char) (n : Nat) : Prop :=
  IsRun payload ∧ value payload = n

/-! ## Runs and commas -/

@[simp] theorem commaJoin_nil : commaJoin [] = [] := rfl

@[simp] theorem commaJoin_singleton (entry : List Char) : commaJoin [entry] = entry := by
  simp [commaJoin]

@[simp] theorem commaJoin_cons_cons (entry other : List Char) (rest : List (List Char)) :
    commaJoin (entry :: other :: rest) = entry ++ ',' :: commaJoin (other :: rest) := by
  simp [commaJoin, List.intercalate_cons_cons]

theorem IsRun.head?_append {entry : List Char} (h : IsRun entry) (rest : List Char) :
    (entry ++ rest).head?.any Char.isDigit = true := by
  obtain ⟨hne, hdigits⟩ := h
  cases entry with
  | nil => exact absurd rfl hne
  | cons c entry => simp [hdigits c List.mem_cons_self]

theorem IsRun.head?_commaJoin {entry : List Char} (h : IsRun entry)
    (rest : List (List Char)) :
    (commaJoin (entry :: rest)).head?.any Char.isDigit = true := by
  cases rest with
  | nil => simpa using h.head?_append []
  | cons other rest => simpa using h.head?_append (',' :: commaJoin (other :: rest))

theorem IsRun.takeWhile_comma {entry : List Char} (h : IsRun entry) (rest : List Char) :
    (entry ++ ',' :: rest).takeWhile Char.isDigit = entry := by
  rw [List.takeWhile_append_of_pos h.2, List.takeWhile_cons_of_neg (by decide),
    List.append_nil]

theorem IsRun.dropWhile_comma {entry : List Char} (h : IsRun entry) (rest : List Char) :
    (entry ++ ',' :: rest).dropWhile Char.isDigit = ',' :: rest := by
  rw [List.dropWhile_append_of_pos h.2, List.dropWhile_cons_of_neg (by decide)]

theorem IsRun.dropWhile_self {entry : List Char} (h : IsRun entry) :
    entry.dropWhile Char.isDigit = [] := by
  rw [← List.append_nil entry, List.dropWhile_append_of_pos h.2, List.dropWhile_nil]

/-! ## Splitting -/

theorem readRuns_run {entry : List Char} (h : IsRun entry) : readRuns entry = .ok [entry] := by
  rw [readRuns]
  split
  · rfl
  · next c rest hrest => simp [h.dropWhile_self] at hrest

theorem readRuns_comma {entry rest : List Char} (h : IsRun entry)
    (hrest : rest.head?.any Char.isDigit = true) :
    readRuns (entry ++ ',' :: rest) = consEntry entry (readRuns rest) := by
  rw [readRuns]
  split
  · next hnil => simp [h.dropWhile_comma] at hnil
  · next c tail htail =>
    rw [h.dropWhile_comma] at htail
    obtain ⟨rfl, rfl⟩ := List.cons.inj htail
    rw [if_neg (by simp), if_pos hrest, h.takeWhile_comma]

theorem readRuns_commaJoin {entry : List Char} {entries : List (List Char)}
    (h : ∀ e ∈ entry :: entries, IsRun e) :
    readRuns (commaJoin (entry :: entries)) = .ok (entry :: entries) := by
  induction entries generalizing entry with
  | nil => simpa using readRuns_run (h entry List.mem_cons_self)
  | cons other entries ih =>
    have hentry := h entry List.mem_cons_self
    have hothers : ∀ e ∈ other :: entries, IsRun e := fun e he => h e (.tail entry he)
    have hother := hothers other List.mem_cons_self
    rw [commaJoin_cons_cons, readRuns_comma hentry (hother.head?_commaJoin entries),
      ih hothers]
    rfl

theorem isRun_takeWhile {text : List Char} (h : text.head?.any Char.isDigit = true) :
    IsRun (text.takeWhile Char.isDigit) := by
  cases text with
  | nil => simp at h
  | cons c text =>
    have hc : c.isDigit = true := by simpa using h
    refine ⟨by simp [hc], fun d hd => ?_⟩
    exact List.all_eq_true.1 List.all_takeWhile d hd

/-- What is read from a text is what its commas join. -/
theorem eq_commaJoin_of_readRuns {text : List Char} {entries : List (List Char)}
    (hhead : text.head?.any Char.isDigit = true) (h : readRuns text = .ok entries) :
    text = commaJoin entries ∧ (∀ e ∈ entries, IsRun e) ∧ entries ≠ [] := by
  have hrun := isRun_takeWhile hhead
  have hsplit := List.takeWhile_append_dropWhile (p := Char.isDigit) (l := text)
  -- On the length: what follows a comma is read next.
  induction hn : text.length using Nat.strongRecOn generalizing text entries with
  | ind n ih =>
    subst hn
    rw [readRuns] at h
    split at h
    · next hnil =>
      obtain rfl := Except.ok.inj h
      rw [hnil, List.append_nil] at hsplit
      rw [hsplit] at hrun
      exact ⟨by simp, by simpa using hrun, by simp⟩
    · next c rest hrest =>
      split at h
      · simp at h
      next hc =>
      rw [Decidable.not_not] at hc
      subst hc
      split at h
      · next hdigit =>
        cases htail : readRuns rest with
        | error e => simp [htail, consEntry] at h
        | ok tail =>
          rw [htail] at h
          obtain rfl := Except.ok.inj h
          rw [hrest] at hsplit
          have hlen : rest.length < text.length := by
            rw [← hsplit, List.length_append, List.length_cons]
            omega
          obtain ⟨hjoin, hruns, hne⟩ := ih rest.length hlen hdigit htail
            (isRun_takeWhile hdigit) List.takeWhile_append_dropWhile rfl
          obtain ⟨other, others, rfl⟩ := List.exists_cons_of_ne_nil hne
          refine ⟨?_, List.forall_mem_cons.2 ⟨hrun, hruns⟩, by simp⟩
          rw [commaJoin_cons_cons, ← hjoin, hsplit]
      · simp at h

/-- **Splitting a payload.** The entries are the runs of digits that the payload joins with
commas, and any other payload is refused. -/
theorem splitEntries_eq_ok_iff {payload : List Char} {entries : List (List Char)} :
    splitEntries payload = .ok entries ↔
      payload = commaJoin entries ∧ ∀ e ∈ entries, IsRun e := by
  constructor
  · intro h
    rw [splitEntries] at h
    split at h
    · next hnil =>
      obtain rfl := Except.ok.inj h
      simp [hnil]
    · split at h
      · next hhead =>
        obtain ⟨hjoin, hruns, -⟩ := eq_commaJoin_of_readRuns hhead h
        exact ⟨hjoin, hruns⟩
      · simp at h
  · intro hfacts
    obtain ⟨rfl, hruns⟩ := hfacts
    cases entries with
    | nil => rfl
    | cons entry entries =>
      have hhead := (hruns entry List.mem_cons_self).head?_commaJoin entries
      have hne : commaJoin (entry :: entries) ≠ [] := by
        intro hnil
        simp [hnil] at hhead
      rw [splitEntries, if_neg hne, if_pos hhead, readRuns_commaJoin hruns]

/-! ## Numbers -/

theorem lists_singleton {payload : List Char} {n : Nat} :
    Lists payload [n] ↔ Denotes payload n := by
  constructor
  · intro h
    obtain ⟨entries, rfl, hruns, hvalues⟩ := h
    obtain ⟨entry, rfl, hvalue⟩ := List.map_eq_singleton_iff.1 hvalues
    rw [commaJoin_singleton]
    exact ⟨hruns entry List.mem_cons_self, hvalue⟩
  · intro h
    obtain ⟨hrun, rfl⟩ := h
    exact ⟨[payload], by simp, by simpa using hrun, by simp⟩

theorem readEntries_eq_ok_iff {tag : Char} {payload : List Char} {entries : List (List Char)} :
    readEntries tag payload = .ok entries ↔
      payload = commaJoin entries ∧ ∀ e ∈ entries, IsRun e := by
  rw [readEntries, mapError_eq_ok_iff, splitEntries_eq_ok_iff]

theorem readValues_eq_ok_iff {tag : Char} {limit : Nat} {entries : List (List Char)}
    {ns : List Nat} :
    readValues tag limit entries = .ok ns ↔
      entries.map value = ns ∧ ∀ n ∈ ns, n ≤ limit := by
  rw [readValues]
  split
  · next entry hentry =>
    have hmem := List.mem_of_find?_eq_some hentry
    have hlarge : ¬value entry ≤ limit := by
      simpa [fits] using List.find?_some hentry
    simp only [reduceCtorEq, false_iff]
    intro hfacts
    obtain ⟨rfl, hall⟩ := hfacts
    exact hlarge (hall (value entry) (List.mem_map_of_mem hmem))
  · next hnone =>
    have hfit : ∀ e ∈ entries, value e ≤ limit := by
      simpa [fits] using hnone
    constructor
    · intro h
      obtain rfl := Except.ok.inj h
      simpa using hfit
    · intro hfacts
      obtain ⟨rfl, -⟩ := hfacts
      rfl

/-- **Reading a list.** A payload is read as the numbers that it lists, if all of them are
within the limit. -/
theorem readList_eq_ok_iff {tag : Char} {limit : Nat} {payload : List Char} {ns : List Nat} :
    readList tag limit payload = .ok ns ↔ Lists payload ns ∧ ∀ n ∈ ns, n ≤ limit := by
  simp only [readList, bind_eq_ok_iff, readEntries_eq_ok_iff, readValues_eq_ok_iff]
  constructor
  · intro h
    obtain ⟨entries, ⟨hjoin, hruns⟩, hvalues, hlimit⟩ := h
    exact ⟨⟨entries, hjoin, hruns, hvalues⟩, hlimit⟩
  · intro h
    obtain ⟨⟨entries, hjoin, hruns, hvalues⟩, hlimit⟩ := h
    exact ⟨entries, ⟨hjoin, hruns⟩, hvalues, hlimit⟩

theorem readCounted_eq_ok_iff {tag : Char} {limit count : Nat} {payload : List Char}
    {v : Vector Nat count} :
    readCounted tag limit count payload = .ok v ↔
      Lists payload v.toList ∧ ∀ n ∈ v.toList, n ≤ limit := by
  simp only [readCounted, bind_eq_ok_iff, readEntries_eq_ok_iff]
  constructor
  · intro hfacts
    obtain ⟨entries, ⟨hjoin, hruns⟩, h⟩ := hfacts
    split at h
    · obtain ⟨ns, hvalues, hv⟩ := bind_eq_ok_iff.1 h
      obtain ⟨rfl, hlimit⟩ := readValues_eq_ok_iff.1 hvalues
      obtain rfl := Except.ok.inj hv
      exact ⟨⟨entries, hjoin, hruns, by simp⟩, by simpa using hlimit⟩
    · simp at h
  · intro hfacts
    obtain ⟨⟨entries, hjoin, hruns, hvalues⟩, hlimit⟩ := hfacts
    have hlength : entries.length = count := by
      simpa using congrArg List.length hvalues
    refine ⟨entries, ⟨hjoin, hruns⟩, ?_⟩
    rw [dif_pos hlength, bind_eq_ok_iff]
    refine ⟨v.toList, readValues_eq_ok_iff.2 ⟨hvalues, hlimit⟩, congrArg Except.ok ?_⟩
    apply Vector.toList_inj.1
    simpa using hvalues

/-- **Reading a number.** A payload is read as the number that it denotes, if that is within the
limit. -/
theorem readNumber_eq_ok_iff {tag : Char} {limit : Nat} {payload : List Char} {n : Nat} :
    readNumber tag limit payload = .ok n ↔ Denotes payload n ∧ n ≤ limit := by
  simp only [readNumber, map_eq_ok_iff, readCounted_eq_ok_iff]
  constructor
  · intro h
    obtain ⟨v, ⟨hlists, hlimit⟩, rfl⟩ := h
    have hv : v.toList = [v[0]] := by
      apply List.ext_getElem
      · simp
      · intro i hi _
        obtain rfl : i = 0 := by simpa using hi
        simp
    rw [hv] at hlists hlimit
    exact ⟨lists_singleton.1 hlists, by simpa using hlimit⟩
  · intro h
    obtain ⟨hdenotes, hlimit⟩ := h
    exact ⟨#v[n], ⟨lists_singleton.2 hdenotes, by simpa using hlimit⟩, rfl⟩

theorem toNat_ofNat_byte {n : Nat} (h : n ≤ 255) : (UInt8.ofNat n).toNat = n :=
  UInt8.toNat_ofNat_of_lt' (Nat.lt_succ_of_le h)

/-- **Reading bytes.** A payload is read as the bytes whose values it lists, if they are as many
as wanted. -/
theorem readBytes_eq_ok_iff {tag : Char} {count : Nat} {payload : List Char}
    {v : Vector UInt8 count} :
    readBytes tag count payload = .ok v ↔ Lists payload (v.toList.map UInt8.toNat) := by
  simp only [readBytes, map_eq_ok_iff, readCounted_eq_ok_iff]
  constructor
  · intro h
    obtain ⟨w, ⟨hlists, hlimit⟩, rfl⟩ := h
    have hw : (w.map UInt8.ofNat).toList.map UInt8.toNat = w.toList := by
      rw [Vector.toList_map, List.map_map]
      calc w.toList.map (UInt8.toNat ∘ UInt8.ofNat)
          = w.toList.map id := List.map_congr_left fun n hn => toNat_ofNat_byte (hlimit n hn)
        _ = w.toList := List.map_id w.toList
    rwa [hw]
  · intro hlists
    refine ⟨v.map UInt8.toNat, ⟨by rwa [Vector.toList_map], ?_⟩, ?_⟩
    · simp only [Vector.toList_map, List.mem_map]
      rintro n ⟨b, -, rfl⟩
      exact Nat.le_of_lt_succ b.toNat_lt
    · apply Vector.ext
      intro i hi
      simp

end Chip8.SaveState
