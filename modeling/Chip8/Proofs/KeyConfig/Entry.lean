import Chip8.KeyConfig.Reader
import Chip8.Proofs.Except
import Chip8.Proofs.Text.Trim

/-!
# What a line binds

`Binds line key action` says without any reading order that a line is a binding: the name of a host
key, an equals sign and the text of an action, with any blanks around the sign. A name is made of
ASCII letters, digits and underscores. The text of an action is `NOP` or a hexadecimal digit of
either case.

**Theorem (`readBinding_eq_ok_iff`).** A line is read as a binding exactly if what trimming leaves
of it binds the key.
-/

namespace Chip8

/-! ## Names and actions -/

def upperDigits : Vector Char 16 :=
  #v['0', '1', '2', '3', '4', '5', '6', '7', '8', '9', 'A', 'B', 'C', 'D', 'E', 'F']

def lowerDigits : Vector Char 16 :=
  #v['0', '1', '2', '3', '4', '5', '6', '7', '8', '9', 'a', 'b', 'c', 'd', 'e', 'f']

/-- The text stands for the action. -/
def KeyAction.SpelledBy : KeyAction → List Char → Prop
  | .press k, text => text = [upperDigits.get k.code] ∨ text = [lowerDigits.get k.code]
  | .idle, text => text = ['N', 'O', 'P']

namespace KeyConfig

/-- A character of which names are made: an ASCII letter, an ASCII digit or an underscore. -/
def NameChar (c : Char) : Prop :=
  ('A' ≤ c ∧ c ≤ 'Z') ∨ ('a' ≤ c ∧ c ≤ 'z') ∨ ('0' ≤ c ∧ c ≤ '9') ∨ c = '_'

/-- The text can be read as the name of a host key. -/
def IsName (name : List Char) : Prop :=
  name ≠ [] ∧ ∀ c ∈ name, NameChar c

/-- The line binds a host key to an action. -/
def Binds (line : List Char) (key : HostKey) (action : KeyAction) : Prop :=
  IsName key.toList ∧ ∃ before after value, Text.Blanks before ∧ Text.Blanks after ∧
    action.SpelledBy value ∧ line = key.toList ++ before ++ '=' :: after ++ value

end KeyConfig

/-! ## Keys -/

theorem Key.ofCode?_eq_some {n : Nat} {k : Key} (h : ofCode? n = some k) : k.code.val = n := by
  rw [ofCode?] at h
  split at h
  · cases h
    rfl
  · cases h

/-- A digit of either case is the name of its key, and nothing else is. -/
theorem Key.ofChar?_eq_some_iff {c : Char} {k : Key} :
    ofChar? c = some k ↔ c = upperDigits.get k.code ∨ c = lowerDigits.get k.code := by
  constructor
  · intro h
    have hdecimal : ∀ d : Fin 16, d.val < 10 → Char.ofNat (d + 48) = upperDigits.get d := by decide
    have hupper : ∀ d : Fin 16, 10 ≤ d.val → Char.ofNat (d + 55) = upperDigits.get d := by decide
    have hlower : ∀ d : Fin 16, 10 ≤ d.val → Char.ofNat (d + 87) = lowerDigits.get d := by decide
    -- In each range of characters, the code of the key gives the character back.
    have hback {n : Nat} (hn : k.code.val + n = c.toNat) : c = Char.ofNat (k.code + n) := by
      rw [hn, Char.ofNat_toNat]
    rw [ofChar?] at h
    split at h
    · next hrange =>
      have hlow : 48 ≤ c.toNat := hrange.1
      have hhigh : c.toNat ≤ 57 := hrange.2
      have hcode : k.code.val = c.toNat - 48 := ofCode?_eq_some h
      exact .inl ((hback (by omega)).trans (hdecimal _ (by omega)))
    · split at h
      · next hrange =>
        have hlow : 65 ≤ c.toNat := hrange.1
        have hcode : k.code.val = c.toNat - 65 + 10 := ofCode?_eq_some h
        exact .inl ((hback (by omega)).trans (hupper _ (by omega)))
      · split at h
        · next hrange =>
          have hlow : 97 ≤ c.toNat := hrange.1
          have hcode : k.code.val = c.toNat - 97 + 10 := ofCode?_eq_some h
          exact .inr ((hback (by omega)).trans (hlower _ (by omega)))
        · cases h
  · have hdigits : ∀ d : Fin 16,
        ofChar? (upperDigits.get d) = some ⟨d⟩ ∧ ofChar? (lowerDigits.get d) = some ⟨d⟩ := by
      decide
    rintro (rfl | rfl)
    · exact (hdigits k.code).1
    · exact (hdigits k.code).2

theorem Key.toList_name (k : Key) : k.name.toList = [upperDigits.get k.code] := by
  have hdigits : ∀ d : Fin 16, Numeral.hex 1 d = [upperDigits.get d] := by decide
  rw [name, Numeral.hexText, String.toList_ofList]
  exact hdigits k.code

/-! ## Actions -/

namespace KeyAction

theorem read_eq_ok_iff {text : List Char} {action : KeyAction} :
    read text = .ok action ↔ action.SpelledBy text := by
  have hname {k : Key} : Key.ofName? text = some k ↔ (press k).SpelledBy text := by
    match text with
    | [c] => simp [Key.ofName?, Key.ofChar?_eq_some_iff, SpelledBy]
    | [] | _ :: _ :: _ => simp [Key.ofName?, SpelledBy]
  constructor
  · intro h
    rw [read] at h
    split at h
    · next hidle =>
      cases h
      exact hidle
    · split at h
      · next k hkey =>
        cases h
        exact hname.1 hkey
      · cases h
  · intro h
    cases action with
    | press k =>
      have hkey : Key.ofName? text = some k := hname.2 h
      have hnot : text ≠ ['N', 'O', 'P'] := by
        rintro rfl
        cases hkey
      rw [read, if_neg hnot, hkey]
    | idle =>
      have hidle : text = ['N', 'O', 'P'] := h
      rw [read, if_pos hidle]

theorem spelledBy_text (action : KeyAction) : action.SpelledBy action.text.toList := by
  cases action with
  | press k => exact .inl k.toList_name
  | idle => exact (by decide : "NOP".toList = ['N', 'O', 'P'])

theorem SpelledBy.word {action : KeyAction} {value : List Char} (h : action.SpelledBy value) :
    value ≠ [] ∧ ∀ c ∈ value, Text.isBlank c = false := by
  have hdigits : ∀ d : Fin 16, Text.isBlank (upperDigits.get d) = false ∧
      Text.isBlank (lowerDigits.get d) = false := by
    decide
  cases action with
  | press k =>
    rcases h with rfl | rfl
    · exact ⟨nofun, by simpa using (hdigits k.code).1⟩
    · exact ⟨nofun, by simpa using (hdigits k.code).2⟩
  | idle =>
    have hletters : Text.isBlank 'N' = false ∧ Text.isBlank 'O' = false ∧
        Text.isBlank 'P' = false := by
      decide
    subst h
    exact ⟨nofun, by simpa using hletters⟩

end KeyAction

/-! ## Characters of a binding -/

namespace KeyConfig

theorem isNameChar_iff {c : Char} : isNameChar c = true ↔ NameChar c := by
  have hkinds : isNameChar c =
      (decide ('A' ≤ c ∧ c ≤ 'Z') || (decide ('a' ≤ c) && decide (c ≤ 'z')) ||
        (decide ('0' ≤ c) && decide (c ≤ '9')) || c == '_') := rfl
  rw [hkinds, NameChar]
  simp only [Bool.or_eq_true, Bool.and_eq_true, decide_eq_true_eq, beq_iff_eq, or_assoc]

theorem NameChar.bounds {c : Char} (h : NameChar c) : 48 ≤ c.toNat ∧ c.toNat ≤ 122 := by
  rcases h with h | h | h | rfl
  · exact ⟨Nat.le_trans (by decide) h.1, Nat.le_trans h.2 (by decide)⟩
  · exact ⟨Nat.le_trans (by decide) h.1, Nat.le_trans h.2 (by decide)⟩
  · exact ⟨Nat.le_trans (by decide) h.1, Nat.le_trans h.2 (by decide)⟩
  · decide

theorem NameChar.not_blank {c : Char} (h : NameChar c) : Text.isBlank c = false := by
  have hbounds := h.bounds
  simp only [Text.isBlank, Text.blankRanges, List.any_cons, List.any_nil, Bool.or_false,
    Bool.or_eq_false_iff, Bool.and_eq_false_iff, decide_eq_false_iff_not]
  omega

theorem not_isNameChar_of_blank {c : Char} (h : Text.isBlank c = true) : isNameChar c = false := by
  rw [← Bool.not_eq_true, isNameChar_iff]
  intro hname
  rw [hname.not_blank] at h
  cases h

/-- The text of an action is the only word after the equals sign. -/
theorem readValue_eq_ok_iff {text value : List Char} :
    readValue text = .ok value ↔ value ≠ [] ∧ (∀ c ∈ value, Text.isBlank c = false) ∧
      ∃ after back, Text.Blanks after ∧ Text.Blanks back ∧ text = after ++ value ++ back := by
  constructor
  · intro h
    rw [readValue] at h
    split at h
    · cases h
    · split at h
      · next hne hrest =>
        cases h
        obtain ⟨after, hafter, htext⟩ := Text.exists_blanks_append text
        refine ⟨hne, fun c hc => ?_, after, _, hafter, Text.trimFront_eq_nil_iff.1 hrest, ?_⟩
        · simpa using List.all_eq_true.1 List.all_takeWhile c hc
        · rw [List.append_assoc, List.takeWhile_append_dropWhile]
          exact htext
      · cases h
  · intro hfacts
    obtain ⟨hne, hword, after, back, hafter, hback, rfl⟩ := hfacts
    have htrim : Text.trimFront (after ++ value ++ back) = value ++ back :=
      Text.trimFront_append_word hafter hne hword back
    have hsplit : (value ++ back).takeWhile (!Text.isBlank ·) = value ∧
        (value ++ back).dropWhile (!Text.isBlank ·) = back :=
      Text.takeWhile_append_of_stop (by simpa using hword)
        fun c hc => by simpa using hback c (List.mem_of_mem_head? hc)
    simp only [readValue, htrim, hsplit, Text.trimFront_eq_nil_iff.2 hback, if_neg hne, if_true]

/-- A name, an equals sign and the text of an action are read off a line in this order. -/
theorem readPair_eq_ok_iff {line name value : List Char} :
    readPair line = .ok (name, value) ↔ IsName name ∧
      ∃ front before rest, Text.Blanks front ∧ Text.Blanks before ∧ readValue rest = .ok value ∧
        line = front ++ name ++ before ++ '=' :: rest := by
  constructor
  · intro h
    simp only [readPair] at h
    split at h
    · cases h
    · next hne =>
      split at h
      · next rest hrest =>
        split at h
        · next hvalue =>
          cases h
          obtain ⟨front, hfront, hline⟩ := Text.exists_blanks_append line
          obtain ⟨before, hbefore, hgap⟩ :=
            Text.exists_blanks_append ((Text.trimFront line).dropWhile isNameChar)
          have hname : ∀ c ∈ (Text.trimFront line).takeWhile isNameChar, NameChar c := fun c hc =>
            isNameChar_iff.1 (List.all_eq_true.1 List.all_takeWhile c hc)
          refine ⟨⟨hne, hname⟩, front, before, rest, hfront, hbefore, hvalue, ?_⟩
          rw [hrest] at hgap
          calc line = front ++ Text.trimFront line := hline
            _ = front ++ ((Text.trimFront line).takeWhile isNameChar ++
                  (Text.trimFront line).dropWhile isNameChar) := by
              rw [List.takeWhile_append_dropWhile]
            _ = _ := by rw [hgap]; simp only [List.append_assoc]
        · cases h
      · cases h
  · intro hfacts
    obtain ⟨⟨hne, hname⟩, front, before, rest, hfront, hbefore, hvalue, rfl⟩ := hfacts
    have htrim : Text.trimFront (front ++ name ++ before ++ '=' :: rest) =
        name ++ (before ++ '=' :: rest) := by
      rw [List.append_assoc (front ++ name),
        Text.trimFront_append_word hfront hne fun c hc => (hname c hc).not_blank]
    -- The name ends where a blank or the sign stands.
    have hstop : ∀ c, (before ++ '=' :: rest).head? = some c → isNameChar c = false := by
      intro c hc
      cases before with
      | nil =>
        cases hc
        decide
      | cons b before =>
        cases hc
        exact not_isNameChar_of_blank (hbefore c List.mem_cons_self)
    have hsplit := Text.takeWhile_append_of_stop (fun c hc => isNameChar_iff.2 (hname c hc)) hstop
    have hsign : Text.trimFront (before ++ '=' :: rest) = '=' :: rest := by
      rw [Text.trimFront_append hbefore]
      exact Text.trimFront_of_head fun c hc => by cases hc; decide
    simp only [readPair, htrim, hsplit, hsign, if_neg hne, hvalue]

/-! ## Bindings -/

theorem readBinding_of_pair {line : List Char} {key : HostKey} {action : KeyAction} :
    readBinding line = .ok (key, action) ↔
      ∃ value, readPair line = .ok (key.toList, value) ∧ action.SpelledBy value := by
  constructor
  · intro h
    rw [readBinding] at h
    split at h
    · cases h
    · next name value hpair =>
      split at h
      · next hread =>
        cases h
        exact ⟨value, by rw [String.toList_ofList, hpair], KeyAction.read_eq_ok_iff.1 hread⟩
      · cases h
  · rintro ⟨value, hpair, hvalue⟩
    simp only [readBinding, hpair, KeyAction.read_eq_ok_iff.2 hvalue, String.ofList_toList]

/-- A binding starts with its name and ends with the text of its action. -/
theorem Binds.trimmed {line : List Char} {key : HostKey} {action : KeyAction}
    (h : Binds line key action) : Text.Trimmed line := by
  obtain ⟨⟨hne, hname⟩, before, after, value, -, -, hvalue, rfl⟩ := h
  obtain ⟨hvalne, hword⟩ := hvalue.word
  constructor
  case head =>
    intro c hc
    rw [List.append_assoc, List.append_assoc, Text.head?_append_left hne] at hc
    exact (hname c (List.mem_of_mem_head? hc)).not_blank
  case last =>
    intro c hc
    rw [List.getLast?_append, Option.or_of_isSome (by simpa using hvalne)] at hc
    exact hword c (List.mem_of_getLast? hc)

/-- **What a line binds.** A line is read as a binding exactly if it is one but for blanks at its
ends. -/
theorem readBinding_eq_ok_iff {line : List Char} {key : HostKey} {action : KeyAction} :
    readBinding line = .ok (key, action) ↔
      ∃ core, Text.Trims line core ∧ Binds core key action := by
  rw [readBinding_of_pair]
  constructor
  · intro hfacts
    obtain ⟨value, hpair, hvalue⟩ := hfacts
    obtain ⟨hname, front, before, rest, hfront, hbefore, hread, rfl⟩ := readPair_eq_ok_iff.1 hpair
    obtain ⟨-, -, after, back, hafter, hback, rfl⟩ := readValue_eq_ok_iff.1 hread
    have hbinds : Binds (key.toList ++ before ++ '=' :: after ++ value) key action :=
      ⟨hname, before, after, value, hbefore, hafter, hvalue, rfl⟩
    exact ⟨_, ⟨hbinds.trimmed, front, back, hfront, hback, by simp⟩, hbinds⟩
  · intro hfacts
    obtain ⟨core, ⟨-, front, back, hfront, hback, rfl⟩, hbinds⟩ := hfacts
    obtain ⟨hname, before, after, value, hbefore, hafter, hvalue, rfl⟩ := hbinds
    obtain ⟨hne, hword⟩ := hvalue.word
    have hread : readValue (after ++ value ++ back) = .ok value :=
      readValue_eq_ok_iff.2 ⟨hne, hword, after, back, hafter, hback, rfl⟩
    exact ⟨value, readPair_eq_ok_iff.2 ⟨hname, front, before, _, hfront, hbefore, hread, by simp⟩,
      hvalue⟩

theorem binding?_eq_some_iff_read {line : List Char} {b : Binding} :
    binding? line = some b ↔ readBinding line = .ok b := by
  rw [binding?]
  cases readBinding line with
  | error e => exact ⟨nofun, nofun⟩
  | ok b' => exact Option.some_inj.trans ok_eq_ok_iff.symm

/-- Of a line without blanks at its ends, all is the binding. -/
theorem binding?_eq_some_iff {line : List Char} (h : Text.Trimmed line) {key : HostKey}
    {action : KeyAction} : binding? line = some (key, action) ↔ Binds line key action := by
  rw [binding?_eq_some_iff_read, readBinding_eq_ok_iff]
  constructor
  · rintro ⟨core, htrims, hbinds⟩
    have hcore : line = core :=
      (Text.trim_eq_iff.2 h.trims).symm.trans (Text.trim_eq_iff.2 htrims)
    rw [hcore]
    exact hbinds
  · exact fun hbinds => ⟨line, h.trims, hbinds⟩

theorem isName_of_binding? {line : List Char} {b : Binding} (h : binding? line = some b) :
    IsName b.1.toList := by
  obtain ⟨core, -, hname, -⟩ := readBinding_eq_ok_iff.1 (binding?_eq_some_iff_read.1 h)
  exact hname

end KeyConfig

end Chip8
