import Chip8.Numeral
import Chip8.Proofs.Text.Clean

/-!
# What numerals are made of

Every character of a numeral is a digit of its base, so numerals are clean. The digits of a
hexadecimal numeral give its number back (`hexValue_hex`), whatever its width.
-/

namespace Chip8.Numeral

/-- A character of a numeral is the digit of a number below the base. -/
theorem exists_of_mem_toDigits {b n : Nat} (hb : 1 < b) {c : Char}
    (h : c ∈ Nat.toDigits b n) : ∃ d < b, c = Nat.digitChar d := by
  -- Along the recursion of the digits: all but the last are those of `n / b`.
  induction n using Nat.strongRecOn with
  | ind n ih =>
    rw [Nat.toDigits_eq_if hb] at h
    split at h
    · next hn => exact ⟨n, hn, List.mem_singleton.1 h⟩
    · next hn =>
      rcases List.mem_append.1 h with h | h
      · exact ih (n / b) (Nat.div_lt_self (by omega) hb) h
      · exact ⟨n % b, Nat.mod_lt n (by omega), List.mem_singleton.1 h⟩

def hexAlphabet : List Char :=
  ['0', '1', '2', '3', '4', '5', '6', '7', '8', '9', 'A', 'B', 'C', 'D', 'E', 'F']

theorem toUpper_digitChar_mem : ∀ d < 16, (Nat.digitChar d).toUpper ∈ hexAlphabet := by
  decide

theorem mem_hexAlphabet_of_mem_hexDigits {n : Nat} {c : Char} (h : c ∈ hexDigits n) :
    c ∈ hexAlphabet := by
  obtain ⟨lower, hlower, rfl⟩ := List.mem_map.1 h
  obtain ⟨d, hd, rfl⟩ := exists_of_mem_toDigits (by decide) hlower
  exact toUpper_digitChar_mem d hd

theorem mem_hexAlphabet_of_mem_hex {width n : Nat} {c : Char} (h : c ∈ hex width n) :
    c ∈ hexAlphabet := by
  rcases List.mem_append.1 h with h | h
  · rw [List.eq_of_mem_replicate h]
    decide
  · exact mem_hexAlphabet_of_mem_hexDigits h

theorem isDigit_of_mem_decimal {n : Nat} {c : Char} (h : c ∈ decimal n) : c.isDigit = true :=
  Nat.isDigit_of_mem_toDigits (by decide) (by decide) h

/-! ## Hexadecimal numerals are read back -/

/-- The number that uppercase hexadecimal digits stand for. -/
def hexValue (digits : List Char) : Nat :=
  digits.foldl (fun n c => n * 16 + hexAlphabet.idxOf c) 0

theorem idxOf_toUpper_digitChar : ∀ d < 16, hexAlphabet.idxOf (Nat.digitChar d).toUpper = d := by
  decide

theorem hexValue_hexDigits (n : Nat) : hexValue (hexDigits n) = n := by
  -- Along the recursion of the digits, as above.
  induction n using Nat.strongRecOn with
  | ind n ih =>
    rw [hexDigits, Nat.toDigits_eq_if (by decide)]
    split
    · next hn => simp [hexValue, idxOf_toUpper_digitChar n hn]
    · next hn =>
      have hfront : hexValue (hexDigits (n / 16)) = n / 16 := ih (n / 16) (by omega)
      have hlast := idxOf_toUpper_digitChar (n % 16) (Nat.mod_lt n (by decide))
      rw [hexValue, hexDigits] at hfront
      rw [hexValue, List.map_append, List.map_singleton, List.foldl_append, hfront,
        List.foldl_cons, hlast, List.foldl_nil]
      omega

/-- The zeros in front of a numeral do not count. -/
@[simp] theorem hexValue_hex (width n : Nat) : hexValue (hex width n) = n := by
  have hzeros (k : Nat) :
      (List.replicate k '0').foldl (fun n c => n * 16 + hexAlphabet.idxOf c) 0 = 0 := by
    induction k with
    | zero => rfl
    | succ k ih => exact ih
  rw [hex, hexValue, List.foldl_append, hzeros]
  exact hexValue_hexDigits n

/-! ## Clean numerals -/

@[simp] theorem clean_hexText (width n : Nat) : Text.Clean (hexText width n).toList := by
  have hclean : Text.Clean hexAlphabet := by simp [hexAlphabet]
  rw [hexText, String.toList_ofList]
  exact hclean.of_subset fun c hc => mem_hexAlphabet_of_mem_hex hc

theorem clean_of_isDigit {text : List Char} (h : ∀ c ∈ text, c.isDigit = true) :
    Text.Clean text := by
  intro c hc
  have hdigit := h c hc
  refine ⟨?_, ?_, ?_⟩ <;> rintro rfl <;> exact absurd hdigit (by decide)

theorem clean_decimal (n : Nat) : Text.Clean (decimal n) :=
  clean_of_isDigit fun _ hc => isDigit_of_mem_decimal hc

@[simp] theorem clean_decimalText (n : Nat) : Text.Clean (decimalText n).toList := by
  rw [decimalText, String.toList_ofList]
  exact clean_decimal n

end Chip8.Numeral
