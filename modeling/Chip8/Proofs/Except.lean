/-!
# When a computation succeeds or fails

What a value of a sequence, of an image and of a renamed error says about the parts, and which
part an error comes from.
-/

namespace Chip8

variable {ε ε' α β : Type}

theorem ok_eq_ok_iff {a b : α} : (Except.ok a : Except ε α) = .ok b ↔ a = b := by
  simp

theorem bind_eq_ok_iff {x : Except ε α} {f : α → Except ε β} {b : β} :
    x >>= f = .ok b ↔ ∃ a, x = .ok a ∧ f a = .ok b := by
  cases x with
  | error e => simp [bind, Except.bind]
  | ok a => simp [bind, Except.bind]

theorem map_eq_ok_iff {x : Except ε α} {f : α → β} {b : β} :
    f <$> x = .ok b ↔ ∃ a, x = .ok a ∧ f a = b := by
  cases x with
  | error e => simp [Functor.map, Except.map]
  | ok a => simp [Functor.map, Except.map]

theorem mapError_eq_ok_iff {x : Except ε α} {f : ε → ε'} {a : α} :
    x.mapError f = .ok a ↔ x = .ok a := by
  cases x with
  | error e =>
    constructor <;> intro h <;> cases h
  | ok b => exact ok_eq_ok_iff.trans ok_eq_ok_iff.symm

theorem mapError_eq_error_iff {x : Except ε α} {f : ε → ε'} {e' : ε'} :
    x.mapError f = .error e' ↔ ∃ e, x = .error e ∧ f e = e' := by
  cases x with
  | error e =>
    constructor
    · intro h
      cases h
      exact ⟨e, rfl, rfl⟩
    · intro hfacts
      obtain ⟨_, h, rfl⟩ := hfacts
      cases h
      rfl
  | ok b =>
    constructor
    · intro h
      cases h
    · intro hfacts
      obtain ⟨_, h, -⟩ := hfacts
      cases h

/-- A sequence fails where its first part does, or where the rest does after that. -/
theorem bind_eq_error_iff {x : Except ε α} {f : α → Except ε β} {e : ε} :
    x >>= f = .error e ↔ x = .error e ∨ ∃ a, x = .ok a ∧ f a = .error e := by
  cases x with
  | error e' => simp [bind, Except.bind]
  | ok a => simp [bind, Except.bind]

theorem map_eq_error_iff {x : Except ε α} {f : α → β} {e : ε} :
    f <$> x = .error e ↔ x = .error e := by
  cases x with
  | error e' => simp [Functor.map, Except.map]
  | ok a => simp [Functor.map, Except.map]

theorem exists_ok_iff {x : Except ε α} : (∃ a, x = .ok a) ↔ ∀ e, x ≠ .error e := by
  cases x with
  | error e' => simp
  | ok a => simp

@[simp] theorem not_throw_eq_ok {e : ε} {a : α} : ¬(throw e : Except ε α) = .ok a :=
  fun h => nomatch h

@[simp] theorem throw_eq_error_iff {e e' : ε} :
    (throw e : Except ε α) = .error e' ↔ e' = e := by
  constructor
  · intro h
    exact (Except.error.inj h).symm
  · rintro rfl
    rfl

@[simp] theorem not_pure_eq_error {a : α} {e : ε} : ¬(pure a : Except ε α) = .error e :=
  fun h => nomatch h

theorem pure_eq_ok_iff {a b : α} : (pure a : Except ε α) = .ok b ↔ a = b :=
  ok_eq_ok_iff

/-- If each element succeeds exactly under a condition, all of them succeed exactly when it holds
of all, and the results are those of the elements. -/
theorem mapM_eq_ok_iff {f : α → Except ε β} {P : α → Prop} {g : α → β}
    (hf : ∀ {a b}, f a = .ok b ↔ P a ∧ g a = b) {l : List α} {bs : List β} :
    l.mapM f = .ok bs ↔ (∀ a ∈ l, P a) ∧ l.map g = bs := by
  induction l generalizing bs with
  | nil => simp [pure_eq_ok_iff]
  | cons a l ih =>
    simp only [List.mapM_cons, bind_eq_ok_iff, pure_eq_ok_iff, hf, ih, List.forall_mem_cons,
      List.map_cons]
    constructor
    · intro h
      obtain ⟨_, ⟨ha, rfl⟩, _, ⟨hl, rfl⟩, rfl⟩ := h
      exact ⟨⟨ha, hl⟩, rfl⟩
    · intro h
      obtain ⟨⟨ha, hl⟩, rfl⟩ := h
      exact ⟨g a, ⟨ha, rfl⟩, l.map g, ⟨hl, rfl⟩, rfl⟩

/-! ## The first fault -/

/-- Of the elements that have a fault, the first one has this fault. -/
def FirstFault (P : α → ε → Prop) (l : List α) (e : ε) : Prop :=
  ∃ before a after, l = before ++ a :: after ∧ (∀ b ∈ before, ∀ e', ¬P b e') ∧ P a e

variable {P : α → ε → Prop}

theorem not_firstFault_nil {e : ε} : ¬FirstFault P [] e := by
  rintro ⟨before, a, after, h, -⟩
  simp at h

theorem firstFault_cons {a : α} {l : List α} {e : ε} :
    FirstFault P (a :: l) e ↔ P a e ∨ (∀ e', ¬P a e') ∧ FirstFault P l e := by
  constructor
  · rintro ⟨before, b, after, hl, hbefore, hb⟩
    cases before with
    | nil =>
      obtain ⟨rfl, rfl⟩ := List.cons.inj hl
      exact .inl hb
    | cons c before =>
      obtain ⟨rfl, rfl⟩ := List.cons.inj hl
      rw [List.forall_mem_cons] at hbefore
      exact .inr ⟨hbefore.1, before, b, after, rfl, hbefore.2, hb⟩
  · rintro (ha | ⟨hnone, before, b, after, rfl, hbefore, hb⟩)
    · exact ⟨[], a, l, rfl, by simp, ha⟩
    · exact ⟨a :: before, b, after, rfl, List.forall_mem_cons.2 ⟨hnone, hbefore⟩, hb⟩

/-- If each element fails exactly with its fault, all of them fail with the first fault. -/
theorem mapM_eq_error_iff {f : α → Except ε β} (hf : ∀ {a e}, f a = .error e ↔ P a e)
    {l : List α} {e : ε} : l.mapM f = .error e ↔ FirstFault P l e := by
  induction l with
  | nil => exact iff_of_false not_pure_eq_error not_firstFault_nil
  | cons a l ih =>
    have hrest : ∀ b : β, (l.mapM f >>= fun bs => pure (b :: bs)) = .error e ↔
        FirstFault P l e := by
      intro b
      simp [map_eq_error_iff, ih]
    have hsound : (∃ b, f a = .ok b) ↔ ∀ e', ¬P a e' := by
      simp only [exists_ok_iff, ne_eq, hf]
    rw [List.mapM_cons, bind_eq_error_iff, firstFault_cons, hf, ← hsound]
    simp only [hrest, exists_and_right]

end Chip8
