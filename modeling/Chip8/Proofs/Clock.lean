import Chip8.Clock
import Chip8.Proofs.History
import Mathlib.Data.List.Basic
import Mathlib.Data.List.Induction

/-!
# The clock under any changes

A clock that was started can be stopped, given a factor and rescheduled. Its period goes by the
latest factor alone, whatever the factors before it were, and it runs unless it was stopped and not
rescheduled since.

**Theorem (`goesBy_after`).** This holds after any changes.
-/

namespace Chip8.Clock

/-- What can be done to a clock. -/
inductive Change where
  | stop
  | setFactor (factor : Float)
  | reschedule (factor : Float)

namespace Change

/-- The factor that the change brings. -/
def factor? : Change → Option Float
  | stop => none
  | setFactor factor | reschedule factor => some factor

/-- The change lets the clock run. -/
def starts : Change → Bool
  | reschedule _ => true
  | _ => false

end Change

def changed (c : Clock) : Change → Clock
  | .stop => c.stop
  | .setFactor factor => c.setFactor factor
  | .reschedule factor => c.reschedule factor

def after (c : Clock) (changes : List Change) : Clock :=
  changes.foldl changed c

/-- The latest factor among the changes. -/
def latest? (changes : List Change) : Option Float :=
  (changes.filterMap Change.factor?).getLast?

/-- The clock is as these changes leave a clock with this base period. -/
structure GoesBy (base : Period) (changes : List Change) (c : Clock) : Prop where
  based : c.base = base
  period : c.period = (latest? changes).elim base base.scale
  running : c.running = true ↔ ¬Since (· = .stop) (fun c => c.starts = false) changes

variable {base : Period} {changes : List Change} {c : Clock}

theorem latest?_concat (changes : List Change) (change : Change) :
    latest? (changes ++ [change]) = change.factor?.or (latest? changes) := by
  cases change <;> simp [latest?, Change.factor?]

theorem GoesBy.changed (h : c.GoesBy base changes) (change : Change) :
    (c.changed change).GoesBy base (changes ++ [change]) := by
  cases change with
  | stop =>
    refine ⟨h.based, ?_, ?_⟩
    · rw [latest?_concat]
      exact h.period
    · rw [since_concat]
      exact iff_of_false Bool.false_ne_true (not_not_intro (.inl rfl))
  | setFactor factor =>
    refine ⟨h.based, ?_, ?_⟩
    · rw [latest?_concat, ← h.based]
      rfl
    · rw [since_concat]
      have hother : Change.setFactor factor ≠ .stop := nofun
      have hrunning : (c.changed (.setFactor factor)).running = c.running := rfl
      simp [hother, Change.starts, hrunning, h.running]
  | reschedule factor =>
    refine ⟨h.based, ?_, ?_⟩
    · rw [latest?_concat, ← h.based]
      rfl
    · rw [since_concat]
      refine iff_of_true rfl ?_
      rintro (hstop | ⟨hstarts, -⟩)
      · cases hstop
      · cases hstarts

/-- **Any changes.** The period of the clock goes by the latest factor, and the clock runs unless it
was stopped and not rescheduled since. -/
theorem goesBy_after (base : Period) (changes : List Change) :
    ((start base).after changes).GoesBy base changes := by
  induction changes using List.reverseRecOn with
  | nil => exact ⟨rfl, rfl, iff_of_true rfl not_since_nil⟩
  | append_singleton changes change ih =>
    rw [after, List.foldl_concat]
    exact ih.changed change

end Chip8.Clock
