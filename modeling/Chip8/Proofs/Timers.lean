import Chip8.Timers
import Mathlib.Algebra.GroupWithZero.Nat
import Mathlib.Data.List.DropRight

/-!
# Timers over any history

A `Change` is anything that is done to the timers. Each counter has a `Deed` of it: the change
counts it, puts a value into it or leaves it. A counter and what is told of it depend on its own
deeds only (`value_changed`, `told_cons`); the results about histories follow from this.

**Theorem (`counters_over_history`).** A counter stands at the last value that was put into it less
the counts since then. It is told to be at zero once for every count that finds it there; between
two values that are put into it these are the counts in excess of the first value. The counters do
not affect each other.
-/

namespace Chip8

/-- The two counters. -/
inductive Counter where
  | delay
  | sound
deriving DecidableEq

/-- The counter that a signal tells of. -/
def Signal.counter : Signal → Counter
  | .delayIdle => .delay
  | .soundIdle | .soundSet => .sound

namespace Counter

/-- The signal that the counter is at zero. -/
def idle : Counter → Signal
  | delay => .delayIdle
  | sound => .soundIdle

end Counter

namespace Timers

/-- What can be done to the timers. -/
inductive Change where
  | tick
  | count (p : Counter)
  | setDelay (value : UInt8)
  | setSound (value : UInt8)
  | loadSound (value : UInt8)
  | zero (p : Counter)
  /-- Zeroing both counters. -/
  | reset
deriving DecidableEq

def value (t : Timers) : Counter → UInt8
  | .delay => t.delay
  | .sound => t.sound

def initial : Timers := {}

/-- The timers after a change, and what they signal. -/
def changed (t : Timers) : Change → Timers × List Signal
  | .tick => t.tick
  | .count .delay => t.countDelay
  | .count .sound => t.countSound
  | .setDelay x => (t.setDelay x, [])
  | .setSound x => t.setSound x
  | .loadSound x => (t.loadSound x, [])
  | .zero .delay => (t.setDelay 0, [])
  | .zero .sound => (t.loadSound 0, [])
  | .reset => (initial, [])

def after (t : Timers) (changes : List Change) : Timers :=
  changes.foldl (fun t c => (t.changed c).1) t

/-- All that the timers signal along a history. -/
def heard (t : Timers) : List Change → List Signal
  | [] => []
  | c :: changes => (t.changed c).2 ++ (t.changed c).1.heard changes

/-- What a history tells of one counter. -/
def told (t : Timers) (p : Counter) (changes : List Change) : List Signal :=
  (t.heard changes).filter (·.counter = p)

/-! ## Deeds -/

/-- What a change is to one counter. -/
inductive Deed where
  | keep
  | count
  /-- A value is put into the counter, and this is told of it. -/
  | put (value : UInt8) (signals : List Signal)

namespace Change

/-- What the change is to a counter. -/
def deed : Change → Counter → Deed
  | tick, _ => .count
  | count p, q => if p = q then .count else .keep
  | setDelay x, .delay => .put x []
  | setDelay _, .sound => .keep
  | setSound x, .sound => .put x [.soundSet]
  | loadSound x, .sound => .put x []
  | setSound _, .delay | loadSound _, .delay => .keep
  | zero p, q => if p = q then .put 0 [] else .keep
  | reset, _ => .put 0 []

/-- The value that the change puts into a counter. -/
def assigned? (c : Change) (p : Counter) : Option UInt8 :=
  match c.deed p with
  | .put x _ => some x
  | _ => none

/-- The change counts a counter down. -/
def counts (c : Change) (p : Counter) : Bool :=
  match c.deed p with
  | .count => true
  | _ => false

/-- The change does something to a counter. -/
def concerns (c : Change) (p : Counter) : Bool :=
  (c.assigned? p).isSome || c.counts p

def setsSound : Change → Bool
  | setSound _ => true
  | _ => false

end Change

/-- A counter with a value after a deed, and what is told of it. -/
def Deed.on (p : Counter) (x : UInt8) : Deed → UInt8 × List Signal
  | keep => (x, [])
  | count => if x = 0 then (x, [p.idle]) else (x - 1, [])
  | put y signals => (y, signals)

variable {t u : Timers} {p : Counter} {c : Change}

theorem countDelay_eq (t : Timers) :
    t.countDelay = ({ t with delay := (Deed.count.on .delay t.delay).1 },
      (Deed.count.on .delay t.delay).2) := by
  rw [countDelay, Deed.on]
  split <;> rfl

theorem countSound_eq (t : Timers) :
    t.countSound = ({ t with sound := (Deed.count.on .sound t.sound).1 },
      (Deed.count.on .sound t.sound).2) := by
  rw [countSound, Deed.on]
  split <;> rfl

theorem tick_eq (t : Timers) :
    t.tick = (⟨(Deed.count.on .delay t.delay).1, (Deed.count.on .sound t.sound).1⟩,
      (Deed.count.on .delay t.delay).2 ++ (Deed.count.on .sound t.sound).2) := by
  simp only [tick, countDelay_eq, countSound_eq]

theorem filter_on_count (p q : Counter) (x : UInt8) :
    (Deed.count.on p x).2.filter (·.counter = q) =
      if p = q then (Deed.count.on p x).2 else [] := by
  rw [Deed.on]
  cases p <;> cases q <;> split <;> rfl

/-- **One change.** A counter is after a change what its deed makes of it. -/
theorem value_changed (t : Timers) (c : Change) (p : Counter) :
    (t.changed c).1.value p = ((c.deed p).on p (t.value p)).1 := by
  cases c with
  | tick =>
    rw [changed, tick_eq]
    cases p <;> rfl
  | count q =>
    cases q with
    | delay =>
      rw [changed, countDelay_eq]
      cases p <;> rfl
    | sound =>
      rw [changed, countSound_eq]
      cases p <;> rfl
  | zero q => cases q <;> cases p <;> rfl
  | _ => cases p <;> rfl

theorem told_changed (t : Timers) (c : Change) (p : Counter) :
    (t.changed c).2.filter (·.counter = p) = ((c.deed p).on p (t.value p)).2 := by
  cases c with
  | tick =>
    rw [changed, tick_eq, List.filter_append, filter_on_count, filter_on_count]
    cases p
    · exact List.append_nil _
    · rfl
  | count q =>
    cases q with
    | delay =>
      rw [changed, countDelay_eq, filter_on_count]
      cases p <;> rfl
    | sound =>
      rw [changed, countSound_eq, filter_on_count]
      cases p <;> rfl
  | zero q => cases q <;> cases p <;> rfl
  | _ => cases p <;> rfl

/-! ## Histories -/

theorem after_concat (t : Timers) (changes : List Change) (c : Change) :
    t.after (changes ++ [c]) = ((t.after changes).changed c).1 :=
  List.foldl_concat ..

theorem after_cons (t : Timers) (c : Change) (changes : List Change) :
    t.after (c :: changes) = (t.changed c).1.after changes :=
  rfl

theorem told_append (t : Timers) (p : Counter) (changes more : List Change) :
    t.told p (changes ++ more) = t.told p changes ++ (t.after changes).told p more := by
  induction changes generalizing t with
  | nil => rfl
  | cons c changes ih =>
    have hrest := ih (t.changed c).1
    simp only [told, List.cons_append, heard, List.filter_append, List.append_assoc] at hrest ⊢
    rw [hrest, after_cons]

theorem told_cons (t : Timers) (p : Counter) (c : Change) (changes : List Change) :
    t.told p (c :: changes) =
      ((c.deed p).on p (t.value p)).2 ++ (t.changed c).1.told p changes := by
  rw [told, heard, List.filter_append, told_changed]
  rfl

/-! ## Values -/

/-- The last value that a history puts into a counter. At first the counters are at zero. -/
def lastAssigned (p : Counter) (changes : List Change) : UInt8 :=
  (changes.filterMap (·.assigned? p)).getLast?.getD 0

/-- How many times a counter is counted after the last value that is put into it. -/
def countsSince (p : Counter) (changes : List Change) : Nat :=
  (changes.rtakeWhile fun c => (c.assigned? p).isNone).countP (·.counts p)

theorem toNat_ne_zero {x : UInt8} (h : x ≠ 0) : x.toNat ≠ 0 := by
  simpa [← UInt8.toNat_inj] using h

theorem toNat_on_count (p : Counter) (x : UInt8) :
    (Deed.count.on p x).1.toNat = x.toNat - 1 := by
  rw [Deed.on]
  split
  · next hx =>
    rw [hx]
    rfl
  · next hx =>
    have hle : (1 : UInt8) ≤ x :=
      UInt8.le_iff_toNat_le.2 (Nat.one_le_iff_ne_zero.2 (toNat_ne_zero hx))
    exact UInt8.toNat_sub_of_le x 1 hle

/-- **Values.** A counter stands at its last value less the counts since then. -/
theorem toNat_value_after (p : Counter) (changes : List Change) :
    ((initial.after changes).value p).toNat =
      (lastAssigned p changes).toNat - countsSince p changes := by
  induction changes using List.reverseRecOn with
  | nil => cases p <;> rfl
  | append_singleton changes c ih =>
    rw [after_concat, value_changed]
    cases hdeed : c.deed p with
    | keep =>
      have hlast : lastAssigned p (changes ++ [c]) = lastAssigned p changes := by
        simp [lastAssigned, Change.assigned?, hdeed]
      have hsince : countsSince p (changes ++ [c]) = countsSince p changes := by
        simp [countsSince, Change.assigned?, Change.counts, hdeed]
      rw [hlast, hsince]
      exact ih
    | count =>
      have hlast : lastAssigned p (changes ++ [c]) = lastAssigned p changes := by
        simp [lastAssigned, Change.assigned?, hdeed]
      have hsince : countsSince p (changes ++ [c]) = countsSince p changes + 1 := by
        simp [countsSince, Change.assigned?, Change.counts, hdeed]
      rw [hlast, hsince, toNat_on_count, ih, Nat.sub_sub]
    | put x signals =>
      have hlast : lastAssigned p (changes ++ [c]) = x := by
        simp [lastAssigned, Change.assigned?, hdeed]
      have hsince : countsSince p (changes ++ [c]) = 0 := by
        simp [countsSince, Change.assigned?, hdeed]
      rw [hlast, hsince]
      rfl

/-! ## Zero -/

/-- The values at which a counter stands where a history counts it. -/
def found (t : Timers) (p : Counter) : List Change → List UInt8
  | [] => []
  | c :: changes =>
    (if c.counts p then [t.value p] else []) ++ (t.changed c).1.found p changes

/-- The values that are put into a counter that starts at `x`, each with the number of counts until
the next one. -/
def intervals (p : Counter) (x : UInt8) (changes : List Change) : List (UInt8 × Nat) :=
  (x :: changes.filterMap (·.assigned? p)).zip
    ((changes.splitOnP fun c => (c.assigned? p).isSome).map (·.countP (·.counts p)))

/-- The counts in excess of the value that is counted down. -/
def excess (p : Counter) (x : UInt8) (changes : List Change) : Nat :=
  ((intervals p x changes).map fun i => i.2 - i.1.toNat).sum

/-- The first count of a value is in excess of it only if the value is zero. -/
theorem excess_of_count {changes : List Change} (x : UInt8) (hdeed : c.deed p = .count) :
    excess p x (c :: changes) =
      (if x = 0 then 1 else 0) + excess p (Deed.count.on p x).1 changes := by
  obtain ⟨run, runs, hruns⟩ := List.exists_cons_of_ne_nil
    (List.splitOnP_ne_nil (fun c => (c.assigned? p).isSome) changes)
  have hnone : c.assigned? p = none := by rw [Change.assigned?, hdeed]
  have hcount : (c :: run).countP (·.counts p) = run.countP (·.counts p) + 1 :=
    List.countP_cons_of_pos (by rw [Change.counts, hdeed])
  simp only [excess, intervals, List.filterMap_cons, hnone, List.splitOnP_cons_eq_if_modifyHead,
    hruns, Option.isSome_none, Bool.false_eq_true, if_false, List.modifyHead_cons, List.map_cons,
    List.zip_cons_cons, List.sum_cons, toNat_on_count]
  rw [hcount]
  split
  · next hx =>
    rw [hx, UInt8.toNat_zero]
    omega
  · next hx =>
    have hne := toNat_ne_zero hx
    omega

theorem excess_of_keep {changes : List Change} (x : UInt8) (hdeed : c.deed p = .keep) :
    excess p x (c :: changes) = excess p x changes := by
  obtain ⟨run, runs, hruns⟩ := List.exists_cons_of_ne_nil
    (List.splitOnP_ne_nil (fun c => (c.assigned? p).isSome) changes)
  have hnone : c.assigned? p = none := by rw [Change.assigned?, hdeed]
  have hcount : (c :: run).countP (·.counts p) = run.countP (·.counts p) :=
    List.countP_cons_of_neg (by simp [Change.counts, hdeed])
  simp only [excess, intervals, List.filterMap_cons, hnone, List.splitOnP_cons_eq_if_modifyHead,
    hruns, Option.isSome_none, Bool.false_eq_true, if_false, List.modifyHead_cons, List.map_cons,
    hcount]

theorem excess_of_put {changes : List Change} (x y : UInt8) {signals : List Signal}
    (hdeed : c.deed p = .put y signals) : excess p x (c :: changes) = excess p y changes := by
  have hsome : c.assigned? p = some y := by rw [Change.assigned?, hdeed]
  simp [excess, intervals, hsome, List.splitOnP_cons_eq_if_modifyHead]

theorem signals_of_put {x : UInt8} {signals : List Signal} (hdeed : c.deed p = .put x signals) :
    signals = [] ∨ p = .sound ∧ signals = [.soundSet] := by
  cases c with
  | tick => cases hdeed
  | count q | zero q =>
    rw [Change.deed] at hdeed
    split at hdeed <;> cases hdeed
    all_goals exact .inl rfl
  | setDelay y | setSound y | loadSound y | reset =>
    cases p <;> cases hdeed <;> simp

/-- Only counts that find a counter at zero tell that it is there. -/
theorem count_idle_on (c : Change) (p : Counter) (x : UInt8) :
    ((c.deed p).on p x).2.count p.idle = (if c.counts p then [x] else []).count 0 := by
  cases hdeed : c.deed p with
  | keep => simp [Change.counts, hdeed, Deed.on]
  | count =>
    rw [Change.counts, hdeed, Deed.on]
    split <;> simp_all
  | put y signals =>
    rw [Change.counts, hdeed]
    obtain rfl | ⟨rfl, rfl⟩ := signals_of_put hdeed
    · rfl
    · rfl

/-- **Zero.** A counter is told to be at zero as often as a count finds it there. -/
theorem count_idle (t : Timers) (p : Counter) (changes : List Change) :
    (t.heard changes).count p.idle = (t.found p changes).count 0 := by
  have htold : (t.told p changes).count p.idle = (t.found p changes).count 0 := by
    induction changes generalizing t with
    | nil => rfl
    | cons c changes ih =>
      rw [told_cons, found, List.count_append, List.count_append, count_idle_on, ih]
  rw [← htold, told, List.count_filter (by cases p <;> rfl)]

theorem count_found (t : Timers) (p : Counter) (changes : List Change) :
    (t.found p changes).count 0 = excess p (t.value p) changes := by
  induction changes generalizing t with
  | nil => simp [found, excess, intervals]
  | cons c changes ih =>
    rw [found, List.count_append, ih, value_changed]
    cases hdeed : c.deed p with
    | keep =>
      have hcounts : c.counts p = false := by rw [Change.counts, hdeed]
      rw [excess_of_keep _ hdeed, hcounts]
      exact Nat.zero_add _
    | count =>
      have hcounts : c.counts p = true := by rw [Change.counts, hdeed]
      rw [excess_of_count _ hdeed, hcounts, if_pos rfl, List.count_singleton]
      simp
    | put x signals =>
      have hcounts : c.counts p = false := by rw [Change.counts, hdeed]
      rw [excess_of_put _ x hdeed, hcounts]
      exact Nat.zero_add _

/-- The counter is told to be at zero once for every count in excess of a value. -/
theorem count_idle_eq_excess (p : Counter) (changes : List Change) :
    (initial.heard changes).count p.idle = excess p 0 changes := by
  rw [count_idle, count_found]
  cases p <;> rfl

/-! ## Setting the sound counter -/

theorem count_soundSet_on_count (p : Counter) (x : UInt8) :
    (Deed.count.on p x).2.count .soundSet = 0 := by
  rw [Deed.on]
  cases p <;> split <;> rfl

theorem count_soundSet_changed (t : Timers) (c : Change) :
    (t.changed c).2.count .soundSet = if c.setsSound then 1 else 0 := by
  have htold : (t.changed c).2.count .soundSet =
      ((c.deed .sound).on .sound t.sound).2.count .soundSet := by
    rw [← List.count_filter (p := (·.counter = .sound)) rfl, told_changed]
    rfl
  rw [htold]
  cases c with
  | tick => exact count_soundSet_on_count .sound t.sound
  | count q =>
    cases q with
    | delay => rfl
    | sound => exact count_soundSet_on_count .sound t.sound
  | zero q => cases q <;> rfl
  | _ => rfl

theorem count_soundSet (t : Timers) (changes : List Change) :
    (t.heard changes).count .soundSet = changes.countP Change.setsSound := by
  induction changes generalizing t with
  | nil => rfl
  | cons c changes ih =>
    rw [heard, List.count_append, count_soundSet_changed, ih, List.countP_cons, Nat.add_comm]

/-! ## One counter alone -/

theorem deed_of_not_concerns (h : ¬c.concerns p = true) : c.deed p = .keep := by
  cases hdeed : c.deed p with
  | keep => rfl
  | _ => simp [Change.concerns, Change.assigned?, Change.counts, hdeed] at h

/-- A counter does not see the changes that do not concern it. -/
theorem filter_concerns (h : t.value p = u.value p) (changes : List Change) :
    (t.after (changes.filter (·.concerns p))).value p = (u.after changes).value p ∧
      t.told p (changes.filter (·.concerns p)) = u.told p changes := by
  induction changes generalizing t u with
  | nil => exact ⟨h, rfl⟩
  | cons c changes ih =>
    rw [after_cons, told_cons]
    by_cases hconcerns : c.concerns p
    · rw [List.filter_cons, if_pos hconcerns, after_cons, told_cons, h]
      have hvalue : (t.changed c).1.value p = (u.changed c).1.value p := by
        rw [value_changed, value_changed, h]
      obtain ⟨hafter, htold⟩ := ih hvalue
      exact ⟨hafter, by rw [htold]⟩
    · have hdeed := deed_of_not_concerns hconcerns
      rw [List.filter_cons, if_neg hconcerns, hdeed]
      refine ih ?_
      rw [value_changed, hdeed]
      exact h

/-- **Silence.** While no value is put into a counter, all that is told of it is that it is at zero,
once for every count after those that bring it there. -/
theorem told_of_unassigned (t : Timers) {more : List Change}
    (h : ∀ c ∈ more, c.assigned? p = none) :
    t.told p more = .replicate (more.countP (·.counts p) - (t.value p).toNat) p.idle := by
  induction more generalizing t with
  | nil => simp [told, heard]
  | cons c more ih =>
    rw [List.forall_mem_cons] at h
    rw [told_cons, ih _ h.2, value_changed, List.countP_cons]
    cases hdeed : c.deed p with
    | keep =>
      rw [Change.counts, hdeed]
      rfl
    | count =>
      rw [Change.counts, hdeed, toNat_on_count, if_pos rfl, Deed.on]
      split
      · next hzero =>
        rw [hzero, UInt8.toNat_zero, Nat.zero_sub, Nat.sub_zero, Nat.sub_zero]
        rfl
      · next hzero =>
        have hne := toNat_ne_zero hzero
        have hcounts : ∀ n, n - ((t.value p).toNat - 1) = n + 1 - (t.value p).toNat := by omega
        rw [hcounts]
        rfl
    | put x signals =>
      rw [Change.assigned?, hdeed] at h
      cases h.1

/-- After more counts than its value, being at zero is the last that is told of a counter. -/
theorem getLast?_told {more : List Change} (changes : List Change)
    (h : ∀ c ∈ more, c.assigned? p = none)
    (hcounts : ((t.after changes).value p).toNat < more.countP (·.counts p)) :
    (t.told p (changes ++ more)).getLast? = some p.idle := by
  obtain ⟨n, hn⟩ := Nat.exists_eq_add_of_lt hcounts
  have hsub : more.countP (·.counts p) - ((t.after changes).value p).toNat = n + 1 := by omega
  rw [told_append, told_of_unassigned _ h, hsub, List.replicate_succ', ← List.append_assoc,
    List.getLast?_concat]

/-! ## Any history -/

/-- **Counters over any history.** Each counter stands at its last value less the counts since then;
it is told to be at zero once for every count that finds it there, which are the counts in excess of
each value; the sound counter is told to be set as often as it is set; what is done to the other
counter makes no difference; and more counts than its value, with no value put into it between, end
in a signal that it is at zero. -/
theorem counters_over_history (changes : List Change) :
    (∀ p, ((initial.after changes).value p).toNat =
        (lastAssigned p changes).toNat - countsSince p changes) ∧
      (∀ p, (initial.heard changes).count p.idle = (initial.found p changes).count 0 ∧
        (initial.heard changes).count p.idle = excess p 0 changes) ∧
      (initial.heard changes).count .soundSet = changes.countP Change.setsSound ∧
      (∀ p, (initial.after (changes.filter (·.concerns p))).value p =
          (initial.after changes).value p ∧
        initial.told p (changes.filter (·.concerns p)) = initial.told p changes) ∧
      ∀ p more, (∀ c ∈ more, c.assigned? p = none) →
        ((initial.after changes).value p).toNat < more.countP (·.counts p) →
        (initial.told p (changes ++ more)).getLast? = some p.idle := by
  refine ⟨fun p => toNat_value_after p changes, fun p => ?_, count_soundSet initial changes,
    fun p => filter_concerns rfl changes, fun p more => getLast?_told changes⟩
  exact ⟨count_idle initial p changes, count_idle_eq_excess p changes⟩

/-- A tone of two ticks is told to end by the third tick after it. -/
theorem counters_over_history_tone :
    (∀ c ∈ [Change.tick, .tick], c.assigned? .sound = none) ∧
      ((initial.after [.setSound 2, .tick]).value .sound).toNat <
        [Change.tick, .tick].countP (·.counts .sound) ∧
      (initial.told .sound [.setSound 2, .tick, .tick, .tick]).getLast? = some .soundIdle :=
  have hassigned : ∀ c ∈ [Change.tick, .tick], c.assigned? .sound = none := by decide
  have hcounts : ((initial.after [.setSound 2, .tick]).value .sound).toNat <
      [Change.tick, .tick].countP (·.counts .sound) := by decide
  ⟨hassigned, hcounts,
    (counters_over_history [.setSound 2, .tick]).2.2.2.2 .sound [.tick, .tick] hassigned hcounts⟩

end Timers

end Chip8
