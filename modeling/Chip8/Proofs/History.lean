/-!
# What has happened since

`Since P Q history` says that `P` has happened in a history and only things with `Q` came after
it. What a system remembers of its past is often of this kind: the last key that went down and
was not let go, or a stop that nothing has undone.
-/

namespace Chip8

variable {α : Type} {P Q : α → Prop}

/-- Something with `P` has happened, and only things with `Q` after it. -/
def Since (P Q : α → Prop) (history : List α) : Prop :=
  ∃ before a after, history = before ++ a :: after ∧ P a ∧ ∀ b ∈ after, Q b

theorem not_since_nil : ¬Since P Q [] := by
  rintro ⟨before, a, after, h, -⟩
  simp at h

theorem concat_eq_append_cons_iff {history before after : List α} {a b : α} :
    history ++ [a] = before ++ b :: after ↔
      (history = before ∧ a = b ∧ after = []) ∨
        ∃ rest, after = rest ++ [a] ∧ history = before ++ b :: rest := by
  constructor
  · intro h
    rcases List.eq_nil_or_concat after with rfl | ⟨rest, c, rfl⟩
    · obtain ⟨hbefore, hlast⟩ := List.append_inj' h rfl
      exact .inl ⟨hbefore, List.singleton_inj.1 hlast, rfl⟩
    · have hsplit : history ++ [a] = (before ++ b :: rest) ++ [c] := by simpa using h
      obtain ⟨hrest, hlast⟩ := List.append_inj' hsplit rfl
      obtain rfl := List.singleton_inj.1 hlast
      exact .inr ⟨rest, List.concat_eq_append, hrest⟩
  · rintro (⟨rfl, rfl, rfl⟩ | ⟨rest, rfl, rfl⟩)
    · rfl
    · simp

/-- What happens last either is what is looked for, or has to let it hold. -/
theorem since_concat {history : List α} {a : α} :
    Since P Q (history ++ [a]) ↔ P a ∨ Q a ∧ Since P Q history := by
  constructor
  · rintro ⟨before, b, after, h, hb, hafter⟩
    obtain ⟨rfl, rfl, rfl⟩ | ⟨rest, rfl, rfl⟩ := concat_eq_append_cons_iff.1 h
    · exact .inl hb
    · obtain ⟨hrest, ha⟩ := List.forall_mem_append.1 hafter
      exact .inr ⟨ha a List.mem_cons_self, before, b, rest, rfl, hb, hrest⟩
  · rintro (ha | ⟨ha, before, b, after, rfl, hb, hafter⟩)
    · exact ⟨history, a, [], rfl, ha, by simp⟩
    · refine ⟨before, b, after ++ [a], by simp, hb, ?_⟩
      exact List.forall_mem_append.2 ⟨hafter, by simpa using ha⟩

end Chip8
