/-!
# Texts that can stand in a section

The payload of a section ends at the first brace and its line at the first newline. A clean text
has neither, so it can be written as a payload and read again.
-/

namespace Chip8.Text

/-- The text has no brace and no newline. -/
def Clean (text : List Char) : Prop :=
  ∀ c ∈ text, c ≠ '{' ∧ c ≠ '}' ∧ c ≠ '\n'

@[simp] theorem clean_nil : Clean [] := by
  simp [Clean]

@[simp] theorem clean_cons {c : Char} {text : List Char} :
    Clean (c :: text) ↔ (c ≠ '{' ∧ c ≠ '}' ∧ c ≠ '\n') ∧ Clean text :=
  List.forall_mem_cons

@[simp] theorem clean_append {text rest : List Char} :
    Clean (text ++ rest) ↔ Clean text ∧ Clean rest :=
  List.forall_mem_append

theorem Clean.of_subset {text alphabet : List Char} (h : Clean alphabet)
    (hsub : ∀ c ∈ text, c ∈ alphabet) : Clean text :=
  fun c hc => h c (hsub c hc)

end Chip8.Text
