import Chip8.KeyConfig

/-!
# Bindings and what keys are bound to

A configuration made from a list binds each key to what its last binding in the list says
(`get?_ofList_eq_some_iff`), and has no other bindings.
-/

namespace Chip8.KeyConfig

/-- The last binding of the key in the list is to this action. -/
def IsLast (bs : List Binding) (key : HostKey) (action : KeyAction) : Prop :=
  ∃ before after, bs = before ++ (key, action) :: after ∧ ∀ b ∈ after, b.1 ≠ key

/-! ## One binding -/

theorem lookup_cons_eq (b : Binding) (bs : List Binding) (k : HostKey) :
    (b :: bs).lookup k = if k = b.1 then some b.2 else bs.lookup k := by
  rw [List.lookup_cons]
  by_cases hk : k = b.1
  · rw [beq_iff_eq.2 hk, if_pos hk]
  · rw [beq_eq_false_iff_ne.2 hk, if_neg hk]

theorem lookup_place (key : HostKey) (action : KeyAction) (bs : List Binding) (k : HostKey) :
    (place key action bs).lookup k = if k = key then some action else bs.lookup k := by
  induction bs with
  | nil => rw [place, lookup_cons_eq]
  | cons b rest ih =>
    rw [place]
    split
    · rw [lookup_cons_eq]
    · split
      · next hkey =>
        subst hkey
        rw [lookup_cons_eq, lookup_cons_eq]
        split <;> rfl
      · next hne =>
        rw [lookup_cons_eq, lookup_cons_eq, ih]
        by_cases hk : k = b.1
        · have hother : k ≠ key := fun h => hne (h.symm.trans hk)
          rw [if_pos hk, if_neg hother, if_pos hk]
        · rw [if_neg hk, if_neg hk]

theorem get?_bind (c : KeyConfig) (key : HostKey) (action : KeyAction) (k : HostKey) :
    (c.bind key action).get? k = if k = key then some action else c.get? k :=
  lookup_place key action c.bindings k

theorem place_of_forall_lt {key : HostKey} {action : KeyAction} {bs : List Binding}
    (h : ∀ b ∈ bs, b.1 < key) : place key action bs = bs ++ [(key, action)] := by
  induction bs with
  | nil => rfl
  | cons b rest ih =>
    obtain ⟨hb, hrest⟩ := List.forall_mem_cons.1 h
    have hnot : ¬key < b.1 := String.lt_asymm hb
    have hne : key ≠ b.1 := fun h => String.lt_irrefl key (h ▸ hb)
    rw [place, if_neg hnot, if_neg hne, ih hrest, List.cons_append]

/-! ## Lists of bindings -/

theorem isLast_cons {b : Binding} {bs : List Binding} {key : HostKey} {action : KeyAction} :
    IsLast (b :: bs) key action ↔
      IsLast bs key action ∨ b = (key, action) ∧ ∀ b' ∈ bs, b'.1 ≠ key := by
  constructor
  · rintro ⟨before, after, hbs, hafter⟩
    cases before with
    | nil =>
      obtain ⟨rfl, rfl⟩ := List.cons.inj hbs
      exact .inr ⟨rfl, hafter⟩
    | cons b' before =>
      obtain ⟨-, rfl⟩ := List.cons.inj hbs
      exact .inl ⟨before, after, rfl, hafter⟩
  · rintro (⟨before, after, rfl, hafter⟩ | ⟨rfl, hbs⟩)
    · exact ⟨b :: before, after, rfl, hafter⟩
    · exact ⟨[], bs, rfl, hbs⟩

/-- Binding keys one after the other: the last binding of a key counts, or the one it had. -/
theorem get?_foldl_bind {bs : List Binding} {c : KeyConfig} {key : HostKey} {action : KeyAction} :
    (bs.foldl (fun c b => c.bind b.1 b.2) c).get? key = some action ↔
      IsLast bs key action ∨ (∀ b ∈ bs, b.1 ≠ key) ∧ c.get? key = some action := by
  induction bs generalizing c with
  | nil => simp [IsLast]
  | cons b bs ih =>
    rw [List.foldl_cons, ih, get?_bind, isLast_cons, List.forall_mem_cons, or_assoc]
    refine or_congr_right ?_
    by_cases hkey : key = b.1
    · subst hkey
      simp [Prod.ext_iff, and_comm]
    · have hne : ¬b = (key, action) := fun h => hkey (congrArg Prod.fst h).symm
      simp [hkey, hne, Ne.symm hkey]

/-- **The last binding counts.** -/
theorem get?_ofList_eq_some_iff {bs : List Binding} {key : HostKey} {action : KeyAction} :
    (ofList bs).get? key = some action ↔ IsLast bs key action := by
  rw [ofList, get?_foldl_bind]
  simp [get?, empty]

theorem mem_foldl_bind {bs : List Binding} {c : KeyConfig} {b : Binding}
    (h : b ∈ (bs.foldl (fun c b => c.bind b.1 b.2) c).bindings) : b ∈ bs ∨ b ∈ c.bindings := by
  induction bs generalizing c with
  | nil => exact .inr h
  | cons b' bs ih =>
    rcases ih h with hbs | hbind
    · exact .inl (.tail b' hbs)
    · rcases mem_place hbind with rfl | hc
      · exact .inl List.mem_cons_self
      · exact .inr hc

theorem mem_of_mem_ofList {bs : List Binding} {b : Binding} (h : b ∈ (ofList bs).bindings) :
    b ∈ bs :=
  (mem_foldl_bind h).resolve_right List.not_mem_nil

/-- Bindings that come in order are kept as they come. -/
theorem bindings_foldl_bind {bs : List Binding} {c : KeyConfig}
    (h : (c.bindings ++ bs).Pairwise fun a b => a.1 < b.1) :
    (bs.foldl (fun c b => c.bind b.1 b.2) c).bindings = c.bindings ++ bs := by
  induction bs generalizing c with
  | nil => exact (List.append_nil _).symm
  | cons b bs ih =>
    have hlast : ∀ a ∈ c.bindings, a.1 < b.1 := fun a ha =>
      (List.pairwise_append.1 h).2.2 a ha b List.mem_cons_self
    have hbind : (c.bind b.1 b.2).bindings = c.bindings ++ [b] := place_of_forall_lt hlast
    rw [List.foldl_cons, ih (by rw [hbind, List.append_assoc]; exact h), hbind, List.append_assoc]
    rfl

theorem eq_of_bindings {c c' : KeyConfig} (h : c.bindings = c'.bindings) : c = c' := by
  cases c
  cases c'
  cases h
  rfl

theorem ofList_bindings (c : KeyConfig) : ofList c.bindings = c :=
  eq_of_bindings (bindings_foldl_bind (c := empty) c.sorted)

end Chip8.KeyConfig
