import LoadTest.Schedule
import Mathlib.Logic.ExistsUnique

/-!
# LoadTest.Proofs.Schedule.Timeline

Where a time falls on a schedule. **Each time before the end lies in exactly one stage, and how many users there
are then is decided by this stage alone** (`Stage.existsUnique_contains`, `Schedule.targetAt_of_contains`). A
stage contains the times from its beginning to just before its end; one without length contains none, and only
sets from where the next one starts.
-/

namespace LoadTest

@[simp] theorem Duration.nanos_minus (a b : Duration) : (a.minus b).nanos = a.nanos - b.nanos := rfl

namespace Stage

/-- When a stage of a list begins, in nanoseconds after the first. -/
def begins (stages : List Stage) (i : Nat) : Nat :=
  Duration.totalNanos ((stages.take i).map (·.duration))

/-- The users that there are before a stage: as many as the target of the one listed just before it. -/
def usersBefore (previous : Nat) (stages : List Stage) : Nat → Nat
  | 0 => previous
  | i + 1 => (stages[i]?.map (·.target)).getD 0

/-- The stage of a list that a time, in nanoseconds after the beginning of the first, falls into. -/
structure Contains (stages : List Stage) (i : Nat) (stage : Stage) (time : Nat) : Prop where
  listed : stages[i]? = some stage
  begun : begins stages i ≤ time
  running : time < begins stages i + stage.duration.nanos

variable {head stage other : Stage} {stages : List Stage} {i j time : Nat}

@[simp] theorem begins_zero (stages : List Stage) : begins stages 0 = 0 := rfl

theorem begins_cons_succ (head : Stage) (stages : List Stage) (i : Nat) :
    begins (head :: stages) (i + 1) = head.duration.nanos + begins stages i := rfl

theorem usersBefore_cons_succ (previous : Nat) (head : Stage) (stages : List Stage) (i : Nat) :
    usersBefore previous (head :: stages) (i + 1) = usersBefore head.target stages i := by
  cases i <;> rfl

/-- A stage begins when the one before it ends. -/
theorem begins_succ (h : stages[i]? = some stage) :
    begins stages (i + 1) = begins stages i + stage.duration.nanos := by
  induction stages generalizing i with
  | nil => simp at h
  | cons head rest ih =>
      cases i with
      | zero =>
          obtain rfl : head = stage := by simpa using h
          simp [begins_cons_succ]
      | succ i => rw [begins_cons_succ, begins_cons_succ, ih (by simpa using h), Nat.add_assoc]

theorem begins_le_succ (stages : List Stage) (i : Nat) : begins stages i ≤ begins stages (i + 1) := by
  cases h : stages[i]? with
  | none =>
      have hlength := List.getElem?_eq_none_iff.mp h
      refine Nat.le_of_eq ?_
      rw [begins, begins, List.take_of_length_le hlength, List.take_of_length_le (by omega)]
  | some stage =>
      rw [begins_succ h]
      exact Nat.le_add_right ..

theorem begins_mono (stages : List Stage) (h : i ≤ j) : begins stages i ≤ begins stages j := by
  induction h with
  | refl => exact Nat.le_refl _
  | step _ ih => exact Nat.le_trans ih (begins_le_succ ..)

/-- No stage begins behind the end of all. -/
theorem begins_le_total (stages : List Stage) (i : Nat) :
    begins stages i ≤ Duration.totalNanos (stages.map (·.duration)) := by
  have hall : begins stages (max i stages.length) = Duration.totalNanos (stages.map (·.duration)) := by
    rw [begins, List.take_of_length_le (Nat.le_max_right ..)]
  exact hall ▸ begins_mono stages (Nat.le_max_left ..)

namespace Contains

/-- A stage that contains a time has a length. -/
theorem duration_pos (h : Contains stages i stage time) : 0 < stage.duration.nanos := by
  have hbegun := h.begun
  have hrunning := h.running
  omega

theorem mem (h : Contains stages i stage time) : stage ∈ stages := List.mem_of_getElem? h.listed

theorem time_lt_total (h : Contains stages i stage time) :
    time < Duration.totalNanos (stages.map (·.duration)) := by
  have hends := begins_succ h.listed ▸ begins_le_total stages (i + 1)
  exact Nat.lt_of_lt_of_le h.running hends

/-- The users before a stage are those of the first one, or the target of some stage. -/
theorem usersBefore_le {bound : Nat} (h : Contains stages i stage time)
    (hall : ∀ stage ∈ stages, stage.target ≤ bound) : usersBefore 0 stages i ≤ bound := by
  cases i with
  | zero => exact Nat.zero_le _
  | succ i =>
      have hlength : i < stages.length := by
        have hlisted := (List.getElem?_eq_some_iff.mp h.listed).1
        omega
      rw [usersBefore, List.getElem?_eq_getElem hlength]
      exact hall _ (List.getElem_mem hlength)

/-- A later stage has not begun as long as an earlier one runs. -/
theorem not_lt (first : Contains stages i stage time) (second : Contains stages j other time) : ¬ i < j := by
  intro hless
  have hends := begins_succ first.listed ▸ begins_mono stages hless
  have hrunning := first.running
  have hbegun := second.begun
  omega

/-- **No time falls into two stages.** -/
theorem unique (first : Contains stages i stage time) (second : Contains stages j other time) :
    i = j ∧ stage = other := by
  obtain rfl : i = j := Nat.le_antisymm (Nat.not_lt.mp (second.not_lt first)) (Nat.not_lt.mp (first.not_lt second))
  exact ⟨rfl, Option.some.inj (first.listed.symm.trans second.listed)⟩

theorem here (h : time < head.duration.nanos) : Contains (head :: stages) 0 head time :=
  ⟨rfl, Nat.zero_le _, by simpa using h⟩

/-- What falls into a stage of the rest falls into that stage after the first one. -/
theorem later (h : Contains stages i stage time) :
    Contains (head :: stages) (i + 1) stage (head.duration.nanos + time) := by
  have hbegun := h.begun
  have hrunning := h.running
  exact ⟨by simpa using h.listed, by rw [begins_cons_succ]; omega, by rw [begins_cons_succ]; omega⟩

end Contains

/-- **Each time before the end falls into a stage.** -/
theorem exists_contains (h : time < Duration.totalNanos (stages.map (·.duration))) :
    ∃ i stage, Contains stages i stage time := by
  induction stages generalizing time with
  | nil => exact absurd h (Nat.not_lt_zero _)
  | cons head rest ih =>
      rw [List.map_cons, Duration.totalNanos] at h
      rcases Nat.lt_or_ge time head.duration.nanos with hless | hge
      · exact ⟨0, head, .here hless⟩
      · obtain ⟨i, stage, hrest⟩ := ih (show time - head.duration.nanos < _ by omega)
        refine ⟨i + 1, stage, ?_⟩
        rw [← Nat.add_sub_of_le hge]
        exact hrest.later

theorem existsUnique_contains (h : time < Duration.totalNanos (stages.map (·.duration))) :
    ∃! place : Nat × Stage, Contains stages place.1 place.2 time := by
  obtain ⟨i, stage, hcontains⟩ := exists_contains h
  refine ⟨(i, stage), hcontains, fun other hother => ?_⟩
  obtain ⟨hplace, hstage⟩ := hother.unique hcontains
  exact Prod.ext hplace hstage

end Stage

namespace Schedule

open Stage

variable {stage : Stage} {stages : List Stage} {schedule : Schedule} {elapsed past : Duration} {i : Nat}

/-- Within a stage the number of users is on the line from those before it to its target. -/
theorem targetIn_of_contains {previous : Nat} (h : Contains stages i stage elapsed.nanos)
    (hpast : elapsed.nanos = begins stages i + past.nanos) :
    targetIn previous stages elapsed = interpolate (usersBefore previous stages i) stage past := by
  have hrunning := h.running
  induction stages generalizing previous elapsed i with
  | nil => exact absurd h.listed (by simp)
  | cons head rest ih =>
      cases i with
      | zero =>
          obtain rfl : head = stage := by simpa using h.listed
          obtain rfl : elapsed = past := Duration.ext (by simpa using hpast)
          rw [targetIn, if_pos (Duration.lt_def.mpr (by simpa using hrunning))]
          rfl
      | succ i =>
          rw [begins_cons_succ] at hpast hrunning
          have hrest : Contains rest i stage (elapsed.minus head.duration).nanos :=
            ⟨by simpa using h.listed, by rw [Duration.nanos_minus]; omega, by rw [Duration.nanos_minus]; omega⟩
          rw [targetIn, if_neg, usersBefore_cons_succ]
          · exact ih hrest (by rw [Duration.nanos_minus]; omega) hrest.running
          · rw [Duration.lt_def]
            omega

/-- Behind the last stage there are no users. -/
theorem targetIn_of_total_le {previous : Nat}
    (h : Duration.totalNanos (stages.map (·.duration)) ≤ elapsed.nanos) : targetIn previous stages elapsed = 0 := by
  induction stages generalizing previous elapsed with
  | nil => rfl
  | cons head rest ih =>
      rw [List.map_cons, Duration.totalNanos] at h
      rw [targetIn, if_neg]
      · exact ih (by rw [Duration.nanos_minus]; omega)
      · rw [Duration.lt_def]
        omega

/-- How far a time is into a stage that has begun. -/
def timeInto (schedule : Schedule) (i : Nat) (elapsed : Duration) : Duration :=
  ⟨elapsed.nanos - begins schedule.stages i, Nat.lt_of_le_of_lt (Nat.sub_le ..) elapsed.nanos_lt⟩

@[simp] theorem nanos_timeInto (schedule : Schedule) (i : Nat) (elapsed : Duration) :
    (schedule.timeInto i elapsed).nanos = elapsed.nanos - begins schedule.stages i := rfl

theorem timeInto_lt (h : Contains schedule.stages i stage elapsed.nanos) :
    schedule.timeInto i elapsed < stage.duration := by
  have hbegun := h.begun
  have hrunning := h.running
  rw [Duration.lt_def, nanos_timeInto]
  omega

/-- **Only the stage at hand decides how many users there are.** -/
theorem targetAt_of_contains (h : Contains schedule.stages i stage elapsed.nanos) :
    schedule.targetAt elapsed
      = interpolate (usersBefore 0 schedule.stages i) stage (schedule.timeInto i elapsed) :=
  targetIn_of_contains h (Nat.add_sub_of_le h.begun).symm

theorem isFinished_iff : schedule.isFinished elapsed = true ↔ schedule.total.nanos ≤ elapsed.nanos := decide_eq_true_iff

theorem targetAt_of_isFinished (h : schedule.isFinished elapsed = true) : schedule.targetAt elapsed = 0 :=
  targetIn_of_total_le (isFinished_iff.mp h)

/-- A schedule has ended exactly if no stage contains the time. -/
theorem isFinished_iff_not_contains : schedule.isFinished elapsed = true
    ↔ ∀ i stage, ¬ Contains schedule.stages i stage elapsed.nanos := by
  rw [isFinished_iff]
  refine ⟨fun hended i stage h => Nat.not_lt.mpr hended h.time_lt_total, fun hnone => ?_⟩
  refine Nat.not_lt.mp fun hless => ?_
  obtain ⟨i, stage, h⟩ := Stage.exists_contains hless
  exact hnone i stage h

end Schedule

end LoadTest
