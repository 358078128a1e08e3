import Chip8.Proofs.Clock
import Chip8.Proofs.Emulator.Program

/-!
# The clock of an emulator

Three kinds of operations reach the clock (`Retimed`): the request to stop it, a speed that is
accepted, and whatever puts the machine at the start of a program, which lets a stopped clock run
again at the present speed. All others leave it.

**Theorem (`clock_keeps_time`).** The clock runs exactly if it was not stopped since the emulator
was made or started over, and once it was set its period is that of the present speed.
-/

namespace Chip8

/-! ## Operations -/

/-- The machine is put at the start of a program, be it the same one. A file that cannot be opened
does not do this. -/
def Request.startsOver : Request → Bool
  | .reset | .loadProgram _ | .loadProgramFile _ (.ok _) => true
  | _ => false

/-- The speed that the request brings, if it is accepted. -/
def Request.speed? : Request → Option Speed
  | .setSpeed factor => if h : isSpeed factor = true then some ⟨factor, h⟩ else none
  | _ => none

namespace Operation

def stops : Operation → Bool
  | .request .stop => true
  | _ => false

def startsOver : Operation → Bool
  | .request r => r.startsOver
  | .access _ => false

def speed? : Operation → Option Speed
  | .request r => r.speed?
  | .access _ => none

end Operation

/-- A stop was requested, and nothing started over since. -/
def StoppedSince (operations : List Operation) : Prop :=
  Since (fun o => o.stops = true) (fun o => o.startsOver = false) operations

/-- Something started over when the clock was stopped. -/
def ClockRestarted (operations : List Operation) : Prop :=
  ∃ before o after, operations = before ++ o :: after ∧ o.startsOver = true ∧ StoppedSince before

/-- The period of the clock was set: at first if the speed is not one, by a new speed, or when the
clock was restarted. -/
def Rescaled (options : Options) (operations : List Operation) : Prop :=
  (options.speed == 1) = false ∨ (∃ o ∈ operations, o.speed?.isSome) ∨ ClockRestarted operations

/-- The latest speed that was accepted, at first that of the options. -/
def latestSpeed (options : Options) (operations : List Operation) : Float :=
  (operations.filterMap Operation.speed?).getLast?.elim options.speed (·.factor)

/-! ## Histories -/

section Histories

variable {options : Options} {operations : List Operation} {o : Operation}

theorem stoppedSince_concat :
    StoppedSince (operations ++ [o]) ↔ o.stops = true ∨ o.startsOver = false ∧ StoppedSince operations :=
  since_concat

theorem clockRestarted_concat :
    ClockRestarted (operations ++ [o]) ↔
      o.startsOver = true ∧ StoppedSince operations ∨ ClockRestarted operations := by
  constructor
  · rintro ⟨before, o', after, h, hover, hstopped⟩
    obtain ⟨rfl, rfl, rfl⟩ | ⟨rest, rfl, rfl⟩ := concat_eq_append_cons_iff.1 h
    · exact .inl ⟨hover, hstopped⟩
    · exact .inr ⟨before, o', rest, rfl, hover, hstopped⟩
  · rintro (⟨hover, hstopped⟩ | ⟨before, o', after, rfl, hover, hstopped⟩)
    · exact ⟨operations, o, [], rfl, hover, hstopped⟩
    · exact ⟨before, o', after ++ [o], by simp, hover, hstopped⟩

theorem rescaled_concat :
    Rescaled options (operations ++ [o]) ↔
      Rescaled options operations ∨ o.speed?.isSome = true ∨
        o.startsOver = true ∧ StoppedSince operations := by
  have hmem : (∃ o' ∈ operations ++ [o], o'.speed?.isSome = true) ↔
      (∃ o' ∈ operations, o'.speed?.isSome = true) ∨ o.speed?.isSome = true := by
    simp only [List.mem_append, List.mem_singleton, or_and_right, exists_or, exists_eq_left]
  rw [Rescaled, Rescaled, hmem, clockRestarted_concat]
  simp only [or_assoc, or_comm, or_left_comm]

theorem latestSpeed_concat :
    latestSpeed options (operations ++ [o]) =
      o.speed?.elim (latestSpeed options operations) (·.factor) := by
  rw [latestSpeed, List.filterMap_append]
  cases hspeed : o.speed? with
  | none => simp [hspeed, latestSpeed]
  | some speed => simp [hspeed]

end Histories

namespace Emulator

/-- The emulator has this clock, as the operations since it was made leave it. -/
structure Timed (options : Options) (operations : List Operation) (e : Emulator) (c : Clock) :
    Prop where
  clock : e.clock = some c
  based : c.base = .ofMilliseconds options.timerPeriod
  running : c.running = true ↔ ¬StoppedSince operations
  speed : e.speed.factor = latestSpeed options operations
  scaled : Rescaled options operations → c.period = c.base.scale e.speed.factor
  unscaled : ¬Rescaled options operations → c.period = c.base

/-! ## One operation -/

/-- What an operation does to the clock and the speed of an emulator. -/
inductive Retimed (e : Emulator) : Operation → Emulator → Prop
  | stops {e' : Emulator} : e'.clock = e.clock.map Clock.stop → e'.speed = e.speed →
      Retimed e (.request .stop) e'
  | startsOver {o : Operation} {e' : Emulator} : o.startsOver = true → o.stops = false →
      o.speed? = none → e'.clock = e.clock.map (restarted e.speed) → e'.speed = e.speed →
      Retimed e o e'
  | speeds {o : Operation} {e' : Emulator} {speed : Speed} : o.startsOver = false → o.stops = false →
      o.speed? = some speed → e'.clock = e.clock.map (atSpeed speed.factor) → e'.speed = speed →
      Retimed e o e'
  | keeps {o : Operation} {e' : Emulator} : o.startsOver = false → o.stops = false → o.speed? = none →
      e'.clock = e.clock → e'.speed = e.speed → Retimed e o e'

theorem stable_timing (clock : Option Clock) (speed : Speed) :
    Stable fun e => e.clock = clock ∧ e.speed = speed where
  step h := h
  tick h := h
  stop h := h

theorem retimed_setSpeed (e : Emulator) (factor : Float) :
    e.Retimed (.request (.setSpeed factor)) (e.setSpeed factor).emulator := by
  by_cases hvalid : isSpeed factor = true
  · have hspeed : Speed.ofFloat factor = .ok ⟨factor, hvalid⟩ := dif_pos hvalid
    rw [setSpeed, hspeed]
    exact .speeds rfl rfl (dif_pos hvalid) rfl rfl
  · have hspeed : Speed.ofFloat factor = .error ⟨factor⟩ := dif_neg hvalid
    rw [setSpeed, hspeed]
    exact .keeps rfl rfl (dif_neg hvalid) rfl rfl

theorem retimed_operate (e : Emulator) (o : Operation) : e.Retimed o (e.operate o) := by
  cases o with
  | access a => exact .keeps rfl rfl rfl rfl rfl
  | request r =>
    rw [operate]
    cases r with
    | stop => exact .stops rfl rfl
    | setSpeed factor => exact e.retimed_setSpeed factor
    | reset => exact .startsOver rfl rfl rfl e.reset_frame.1 e.reset_setup.1
    | loadProgram source =>
      exact .startsOver rfl rfl rfl (e.loadProgram_frame source).1 (e.loadProgram_setup source).1
    | loadProgramFile path opened =>
      cases opened with
      | error error => exact .keeps rfl rfl rfl rfl rfl
      | ok source =>
        exact .startsOver rfl rfl rfl (e.loadProgram_frame source).1
          (e.loadProgram_setup source).1
    | start =>
      rw [serve]
      exact e.start_preserves (.keeps rfl rfl rfl rfl rfl) (.keeps rfl rfl rfl rfl rfl)
    | executeCycles owed =>
      obtain ⟨hclock, hspeed⟩ := (stable_timing e.clock e.speed).executeCycles ⟨rfl, rfl⟩ owed
      exact .keeps rfl rfl rfl hclock hspeed
    | drive owed =>
      obtain ⟨hclock, hspeed⟩ := (stable_timing e.clock e.speed).driven ⟨rfl, rfl⟩ owed
      exact .keeps rfl rfl rfl hclock hspeed
    | keyUp key =>
      rw [serve, keyUp]
      split <;> exact .keeps rfl rfl rfl rfl rfl
    | loadStateFile path contents =>
      rw [serve]
      exact e.loadStateFile_preserves path contents (.keeps rfl rfl rfl rfl rfl) fun _ =>
        .keeps rfl rfl rfl rfl rfl
    | _ => exact .keeps rfl rfl rfl rfl rfl

/-! ## Any operations -/

theorem operated_concat (e : Emulator) (operations : List Operation) (o : Operation) :
    e.operated (operations ++ [o]) = (e.operated operations).operate o := by
  induction operations generalizing e with
  | nil => rfl
  | cons o' operations ih => exact ih (e.operate o')

section Operations

variable {options : Options} {operations : List Operation} {o : Operation} {e e' : Emulator}
  {c : Clock}

theorem rescaled_concat_of_not (hspeed : o.speed? = none)
    (hrunning : o.startsOver = true → ¬StoppedSince operations) :
    Rescaled options (operations ++ [o]) ↔ Rescaled options operations := by
  have hnot : ¬(o.startsOver = true ∧ StoppedSince operations) := fun h => hrunning h.1 h.2
  simp [rescaled_concat, hspeed, hnot]

theorem Timed.of_period (h : Timed options operations e c) {c' : Clock}
    (hspeed? : o.speed? = none) (hrunning : o.startsOver = true → ¬StoppedSince operations)
    (hclock : e'.clock = some c') (hbase : c'.base = c.base) (hperiod : c'.period = c.period)
    (hspeed : e'.speed = e.speed)
    (hrun : c'.running = true ↔ ¬StoppedSince (operations ++ [o])) :
    Timed options (operations ++ [o]) e' c' where
  clock := hclock
  based := hbase.trans h.based
  running := hrun
  speed := by rw [latestSpeed_concat, hspeed?, hspeed, h.speed]; rfl
  scaled := by
    rw [rescaled_concat_of_not hspeed? hrunning, hbase, hperiod, hspeed]
    exact h.scaled
  unscaled := by
    rw [rescaled_concat_of_not hspeed? hrunning, hbase, hperiod]
    exact h.unscaled

theorem atSpeed_eq (factor : Float) (c : Clock) : atSpeed factor c = c.setFactor factor := by
  rw [atSpeed]
  split
  · next hrunning => rw [Clock.reschedule, Clock.setFactor, hrunning]
  · rfl

/-- **One operation** leaves the clock as it should be. -/
theorem Timed.retimed (h : Timed options operations e c) (hretimed : e.Retimed o e') :
    ∃ c', Timed options (operations ++ [o]) e' c' := by
  cases hretimed with
  | stops hclock hspeed =>
    refine ⟨c.stop, h.of_period rfl (fun hover => absurd hover Bool.false_ne_true) ?_ rfl rfl hspeed ?_⟩
    · rw [hclock, h.clock]
      rfl
    · rw [stoppedSince_concat]
      exact iff_of_false Bool.false_ne_true (not_not_intro (.inl rfl))
  | startsOver hover hnot hspeed? hclock hspeed =>
    have hgoes : ¬StoppedSince (operations ++ [o]) := by
      simp [stoppedSince_concat, hnot, hover]
    rw [h.clock, Option.map_some, restarted] at hclock
    -- Only a clock that stood still is scheduled anew.
    split at hclock
    · next hrunning =>
      exact ⟨c, h.of_period hspeed? (fun _ => h.running.1 hrunning) hclock rfl rfl hspeed
        (iff_of_true hrunning hgoes)⟩
    · next hrunning =>
      have hstopped : StoppedSince operations := by
        rwa [h.running, not_not] at hrunning
      have hrescaled : Rescaled options (operations ++ [o]) :=
        rescaled_concat.2 (.inr (.inr ⟨hover, hstopped⟩))
      refine ⟨c.reschedule e.speed.factor, hclock, h.based, iff_of_true rfl hgoes, ?_, fun _ => ?_,
        fun hnever => absurd hrescaled hnever⟩
      · rw [latestSpeed_concat, hspeed?, hspeed, h.speed]
        rfl
      · rw [hspeed]
        rfl
  | @speeds _ _ speed hover hnot hspeed? hclock hspeed =>
    have hrescaled : Rescaled options (operations ++ [o]) :=
      rescaled_concat.2 (.inr (.inl (by rw [hspeed?]; rfl)))
    have hrun : c.running = true ↔ ¬StoppedSince (operations ++ [o]) := by
      simp [stoppedSince_concat, hnot, hover, h.running]
    refine ⟨c.setFactor speed.factor, ?_, h.based, hrun, ?_, fun _ => ?_,
      fun hnever => absurd hrescaled hnever⟩
    · rw [hclock, h.clock, Option.map_some, atSpeed_eq]
    · rw [latestSpeed_concat, hspeed?, hspeed]
      rfl
    · rw [hspeed]
      rfl
  | keeps hover hnot hspeed? hclock hspeed =>
    have hrun : c.running = true ↔ ¬StoppedSince (operations ++ [o]) := by
      simp [stoppedSince_concat, hnot, hover, h.running]
    have hrunning : o.startsOver = true → ¬StoppedSince operations := fun hstarts =>
      absurd (hover.symm.trans hstarts) Bool.false_ne_true
    exact ⟨c, h.of_period hspeed? hrunning (hclock.trans h.clock) rfl rfl hspeed hrun⟩

theorem timed_operated (h : Timed options [] e c) (operations : List Operation) :
    ∃ c', Timed options operations (e.operated operations) c' := by
  induction operations using List.reverseRecOn with
  | nil => exact ⟨c, h⟩
  | append_singleton operations o ih =>
    obtain ⟨c', h'⟩ := ih
    rw [operated_concat]
    exact h'.retimed (retimed_operate _ o)

end Operations

theorem rescaled_nil {options : Options} :
    Rescaled options [] ↔ (options.speed == 1) = false := by
  have hnever : ¬ClockRestarted [] := by
    rintro ⟨before, o, after, h, -⟩
    simp at h
  simp [Rescaled, hnever]

/-- The clock of a fresh emulator runs at the base period, unless the speed is not one. -/
theorem timed_create {options : Options} {generator : Generator} {e : Emulator}
    (h : create options generator = .ok e) (hclocked : options.clocked = true) :
    ∃ c, Timed options [] e c := by
  rw [create, Speed.ofFloat] at h
  by_cases hvalid : isSpeed options.speed = true
  · rw [dif_pos hvalid] at h
    obtain rfl := Except.ok.inj h
    have hgoes : ¬StoppedSince [] := not_since_nil
    cases hone : options.speed == 1 with
    | true =>
      refine ⟨.start (.ofMilliseconds options.timerPeriod), ?_, rfl, iff_of_true rfl hgoes, rfl,
        fun hrescaled => ?_, fun _ => rfl⟩
      · simp only [freshClock, hclocked, hone, if_true]
      · rw [rescaled_nil, hone] at hrescaled
        cases hrescaled
    | false =>
      refine ⟨.reschedule (.start (.ofMilliseconds options.timerPeriod)) options.speed, ?_, rfl,
        iff_of_true rfl hgoes, rfl, fun _ => rfl, fun hnever => ?_⟩
      · simp only [freshClock, hclocked, hone, if_true, Bool.false_eq_true, if_false]
      · exact absurd (rescaled_nil.2 hone) hnever
  · rw [dif_neg hvalid] at h
    cases h

/-! ## The law of the clock -/

/-- **The clock keeps time.** The period of a clock is its base period, or that divided by the
latest factor, and no earlier factor matters; it runs unless it was stopped and not rescheduled
since, and a factor alone does not change that. The clock of an emulator runs exactly if no stop was
requested since the emulator was made or started over; and once a speed was accepted or the clock
was restarted, its period is that of the present speed. -/
theorem clock_keeps_time :
    (∀ (base : Period) (changes : List Clock.Change),
      ((Clock.start base).after changes).GoesBy base changes ∧
        (∀ changes', Clock.latest? changes' = Clock.latest? changes →
          ((Clock.start base).after changes').period =
            ((Clock.start base).after changes).period) ∧
        ∀ factor, ((Clock.start base).after (changes ++ [.setFactor factor])).running =
          ((Clock.start base).after changes).running) ∧
      ∀ (options : Options) (generator : Generator) (e : Emulator),
        create options generator = .ok e → options.clocked = true →
          ∀ operations, ∃ c, Timed options operations (e.operated operations) c := by
  refine ⟨fun base changes => ⟨Clock.goesBy_after base changes, ?latest, ?factor⟩, ?emulator⟩
  case latest =>
    intro changes' hlatest
    rw [(Clock.goesBy_after base changes').period, (Clock.goesBy_after base changes).period,
      hlatest]
  case factor =>
    intro factor
    rw [Clock.after, List.foldl_concat]
    rfl
  case emulator =>
    intro options generator e hcreate hclocked operations
    obtain ⟨c, h⟩ := timed_create hcreate hclocked
    exact timed_operated h operations

/-- A stop, a speed that is accepted, one that is not, and a reset. -/
def stopAndGo : List Operation :=
  [.request .stop, .request (.setSpeed 2), .request (.setSpeed (-1)), .request .reset]

theorem clock_keeps_time_stopAndGo :
    create {} (.ofSeed 0 0 0 0) = .ok standard ∧ ({} : Options).clocked = true ∧
      (∃ c, (standard.operated stopAndGo).clock = some c ∧ c.running = true ∧
        c.period = (Period.ofMilliseconds 17).scale (standard.operated stopAndGo).speed.factor) ∧
      Clock.latest? [.setFactor 3, .stop, .reschedule 2] = Clock.latest? [.setFactor 2] ∧
      ((Clock.start .shortest).after [.setFactor 3, .stop, .reschedule 2]).period =
        ((Clock.start .shortest).after [.setFactor 2]).period := by
  obtain ⟨hclock, hemulator⟩ := clock_keeps_time
  obtain ⟨c, htimed⟩ := hemulator {} _ standard create_standard rfl stopAndGo
  have hgoes : ¬StoppedSince stopAndGo := by
    have hreset : stopAndGo = stopAndGo.dropLast ++ [.request .reset] := rfl
    rw [hreset, stoppedSince_concat]
    rintro (hstops | ⟨hnever, -⟩)
    · cases hstops
    · cases hnever
  have hstopped : StoppedSince stopAndGo.dropLast :=
    ⟨[], .request .stop, _, rfl, rfl, by simp [Operation.startsOver, Request.startsOver]⟩
  have hrescaled : Rescaled {} stopAndGo :=
    .inr (.inr ⟨stopAndGo.dropLast, .request .reset, [], rfl, rfl, hstopped⟩)
  have hlatest : Clock.latest? [.setFactor 3, .stop, .reschedule 2] =
      Clock.latest? [.setFactor 2] :=
    (Clock.latest?_concat [.setFactor 3, .stop] (.reschedule 2)).trans
      (Clock.latest?_concat [] (.setFactor 2)).symm
  have hperiod := (hclock .shortest [.setFactor 2]).2.1 _ hlatest
  refine ⟨create_standard, rfl, ⟨c, htimed.clock, htimed.running.2 hgoes, ?_⟩, hlatest, hperiod⟩
  rw [htimed.scaled hrescaled, htimed.based]

end Emulator

end Chip8
