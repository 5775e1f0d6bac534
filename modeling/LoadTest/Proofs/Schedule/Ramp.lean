import LoadTest.Proofs.Duration.Seconds
import LoadTest.Proofs.Schedule.Timeline

/-!
# LoadTest.Proofs.Schedule.Ramp

What is computed within a stage. **The number of users never leaves the range between those before the stage and
its target, and only moves towards the target** (`Schedule.staysOnCourse`). All four operations on the way are
rounded, but the two ends of the range are doubles, and rounding does not pass those; nor does it turn round what
is in order. Beside the number stand the checked sums, differences and quotients of times from which it could be
computed (`Schedule.walk?`): none of them fails.
-/

namespace LoadTest

open Binary64

-- The number of units in one has a thousand binary digits, and no step here is to write them out.
attribute [local irreducible] Binary64.one

/-! ### The part of a stage that is over -/

namespace Duration

variable {elapsed later length : Duration}

/-- The units of the part that one duration is of another. -/
def partUnits (elapsed length : Duration) : Nat := roundUnits (elapsed.secondUnits * one) length.secondUnits

theorem partUnits_le_one (h : elapsed ≤ length) (hpos : 0 < length.nanos) : partUnits elapsed length ≤ one := by
  refine roundUnits_le representable_one (secondUnits_pos hpos) ?_
  rw [Nat.mul_comm]
  exact Nat.mul_le_mul_left one (secondUnits_mono h)

theorem partUnits_mono (h : elapsed ≤ later) (hpos : 0 < length.nanos) :
    partUnits elapsed length ≤ partUnits later length := by
  have hlength := secondUnits_pos hpos
  refine roundUnits_mono hlength hlength ?_
  gcongr
  exact secondUnits_mono h

theorem hasUnits_part (h : elapsed ≤ length) (hpos : 0 < length.nanos) :
    (elapsed.toSeconds / length.toSeconds).HasUnits (partUnits elapsed length) :=
  elapsed.hasUnits_toSeconds.div length.hasUnits_toSeconds (secondUnits_pos hpos)
    (Nat.lt_of_le_of_lt (partUnits_le_one h hpos) one_lt_limit)

end Duration

/-! ### The line in doubles -/

namespace Schedule

variable {users before target part further : Nat}

/-- The units of a part of some users. -/
def shareUnits (users part : Nat) : Nat := roundUnits (users * one * part) one

/-- The units of the number that is reached on the way from the users before a stage to its target. -/
def rampUnits (before target part : Nat) : Nat :=
  if before ≤ target then roundUnits (before * one + shareUnits (target - before) part) 1
  else roundUnits (before * one - shareUnits (before - target) part) 1

theorem representable_users (h : users ≤ 2 ^ 53) : Representable (users * one) :=
  (hasUnits_ofNat_of_le h).representable

theorem shareUnits_le (husers : users ≤ 2 ^ 53) (hpart : part ≤ one) : shareUnits users part ≤ users * one :=
  roundUnits_le (representable_users husers) Binary64.one_pos (Nat.mul_le_mul_left _ hpart)

theorem shareUnits_mono (users : Nat) (h : part ≤ further) : shareUnits users part ≤ shareUnits users further :=
  roundUnits_mono Binary64.one_pos Binary64.one_pos (by gcongr)

/-- **The line lies between its ends,** upwards … -/
theorem rampUnits_mem_of_le (h : before ≤ target) (htarget : target ≤ 2 ^ 53) (hpart : part ≤ one) :
    before * one ≤ rampUnits before target part ∧ rampUnits before target part ≤ target * one := by
  have hshare := shareUnits_le (Nat.le_trans (Nat.sub_le target before) htarget) hpart
  have hway : before * one + (target - before) * one = target * one := by
    rw [← Nat.add_mul, Nat.add_sub_of_le h]
  rw [rampUnits, if_pos h]
  exact ⟨le_roundUnits (representable_users (by omega)) Nat.one_pos (by omega),
    roundUnits_le (representable_users htarget) Nat.one_pos (by omega)⟩

/-- … and downwards. -/
theorem rampUnits_mem_of_lt (h : target < before) (hbefore : before ≤ 2 ^ 53) (hpart : part ≤ one) :
    target * one ≤ rampUnits before target part ∧ rampUnits before target part ≤ before * one := by
  have hshare := shareUnits_le (Nat.le_trans (Nat.sub_le before target) hbefore) hpart
  have hway : target * one + (before - target) * one = before * one := by
    rw [← Nat.add_mul, Nat.add_sub_of_le (Nat.le_of_lt h)]
  rw [rampUnits, if_neg (Nat.not_le.mpr h)]
  exact ⟨le_roundUnits (representable_users (by omega)) Nat.one_pos (by omega),
    roundUnits_le (representable_users hbefore) Nat.one_pos (by omega)⟩

/-- The line starts with the users before the stage. -/
theorem rampUnits_zero (target : Nat) (hbefore : before ≤ 2 ^ 53) : rampUnits before target 0 = before * one := by
  have hnone (users : Nat) : shareUnits users 0 = 0 := by rw [shareUnits, Nat.mul_zero, roundUnits_zero]
  have hexact := roundUnits_one (representable_users hbefore)
  rw [rampUnits]
  split <;> simpa [hnone] using hexact

theorem rampUnits_mono_of_le (h : before ≤ target) (hpart : part ≤ further) :
    rampUnits before target part ≤ rampUnits before target further := by
  have hshare := shareUnits_mono (target - before) hpart
  rw [rampUnits, rampUnits, if_pos h, if_pos h]
  exact roundUnits_mono Nat.one_pos Nat.one_pos (by omega)

theorem rampUnits_anti_of_lt (h : target < before) (hpart : part ≤ further) :
    rampUnits before target further ≤ rampUnits before target part := by
  have hshare := shareUnits_mono (before - target) hpart
  rw [rampUnits, rampUnits, if_neg (Nat.not_le.mpr h), if_neg (Nat.not_le.mpr h)]
  exact roundUnits_mono Nat.one_pos Nat.one_pos (by omega)

/-- Differences of users are doubles. -/
theorem hasUnits_sub_users {greater less : Nat} (hle : less ≤ greater) (h : greater ≤ 2 ^ 53) :
    (ofNat greater - ofNat less).HasUnits ((greater - less) * one) := by
  have hsub := (hasUnits_ofNat_of_le h).sub (hasUnits_ofNat_of_le (n := less) (by omega))
    (Nat.mul_le_mul_right one hle)
  rwa [← Nat.sub_mul, roundUnits_one (representable_users (by omega))] at hsub

theorem hasUnits_share {x p : Binary64} (hx : x.HasUnits (users * one)) (husers : users ≤ 2 ^ 53)
    (hp : p.HasUnits part) (hpart : part ≤ one) : (x * p).HasUnits (shareUnits users part) :=
  hx.mul hp (Nat.lt_of_le_of_lt (shareUnits_le husers hpart) hx.representable.1)

/-- What is computed is the line in units. -/
theorem hasUnits_ramp {p : Binary64} (hbefore : before ≤ 2 ^ 53) (htarget : target ≤ 2 ^ 53)
    (hp : p.HasUnits part) (hpart : part ≤ one) :
    (ofNat before + (ofNat target - ofNat before) * p).HasUnits (rampUnits before target part) := by
  have hbeforeUnits := hasUnits_ofNat_of_le hbefore
  rcases Nat.lt_or_ge target before with hfalls | hrises
  · -- Downwards the difference is negative, and so is the share of it that is added.
    have hway := hasUnits_sub_users (Nat.le_of_lt hfalls) hbefore
    have hshare := hasUnits_share hway (by omega) hp hpart
    have hle := shareUnits_le (Nat.le_trans (Nat.sub_le before target) hbefore) hpart
    have hsub := hbeforeUnits.sub hshare (Nat.le_trans hle (Nat.mul_le_mul_right one (Nat.sub_le ..)))
    rw [(hasUnits_ofNat_of_le htarget).sub_eq_neg hbeforeUnits
      (Nat.mul_lt_mul_of_pos_right hfalls Binary64.one_pos), hway.neg_mul hp]
    rw [rampUnits, if_neg (Nat.not_le.mpr hfalls)]
    exact hsub
  · have hshare := hasUnits_share (hasUnits_sub_users hrises htarget) (by omega) hp hpart
    have hmem := (rampUnits_mem_of_le hrises htarget hpart).2
    rw [rampUnits, if_pos hrises] at hmem ⊢
    exact hbeforeUnits.add hshare (Nat.lt_of_le_of_lt hmem (representable_users htarget).1)

theorem rampUnits_le (hbefore : before ≤ 2 ^ 53) (htarget : target ≤ 2 ^ 53) (hpart : part ≤ one) :
    rampUnits before target part ≤ 2 ^ 53 * one := by
  rcases Nat.lt_or_ge target before with hfalls | hrises
  · exact Nat.le_trans (rampUnits_mem_of_lt hfalls hbefore hpart).2 (Nat.mul_le_mul_right one hbefore)
  · exact Nat.le_trans (rampUnits_mem_of_le hrises htarget hpart).2 (Nat.mul_le_mul_right one htarget)

/-- The number of users in a stage is the whole part of the line. -/
theorem interpolate_eq {stage : Stage} {elapsed : Duration} (hbefore : before ≤ 2 ^ 53)
    (htarget : stage.target ≤ 2 ^ 53) (helapsed : elapsed ≤ stage.duration) (hpos : 0 < stage.duration.nanos) :
    interpolate before stage elapsed
      = rampUnits before stage.target (elapsed.partUnits stage.duration) / one := by
  have hpart := Duration.partUnits_le_one helapsed hpos
  have hramp := hasUnits_ramp hbefore htarget (Duration.hasUnits_part helapsed hpos) hpart
  have hle : rampUnits before stage.target (elapsed.partUnits stage.duration) / one ≤ 2 ^ 53 :=
    Nat.div_le_of_le_mul (by
      rw [Nat.mul_comm]
      exact rampUnits_le hbefore htarget hpart)
  have hsize : UInt64.size - 1 = 2 ^ 64 - 1 := rfl
  unfold interpolate
  dsimp only
  rw [hramp.toNatBelow]
  exact Nat.min_eq_left (by omega)

/-! ### Steps that could fail -/

end Schedule

/-- What is left of `a` after `b`, if that is not longer. -/
def Duration.sub? (a b : Duration) : Option Duration := if b ≤ a then some (a.minus b) else none

/-- The quotient of two numbers, if the divisor is not zero. -/
def Binary64.div? (x y : Binary64) : Option Binary64 := if y.eq 0 then none else some (x / y)

namespace Schedule

open Stage

variable {stage : Stage} {stages : List Stage} {schedule : Schedule} {active elapsed later : Duration} {i : Nat}

/-- The number of users, computed from when each stage begins: none if a sum of times is no duration, a time is
taken from a shorter one, or something is divided by zero. -/
def walk? (active : Duration) (previous : Nat) : List Stage → Duration → Option Nat
  | [], _ => some 0
  | stage :: stages, elapsed => do
      let ends ← active.add? stage.duration
      if elapsed < ends then
        let past ← elapsed.sub? active
        let progress ← past.toSeconds.div? stage.duration.toSeconds
        let difference := ofNat stage.target - ofNat previous
        pure ((ofNat previous + difference * progress).toNatBelow UInt64.size)
      else walk? ends stage.target stages elapsed

theorem div?_toSeconds (past : Duration) {length : Duration} (hpos : 0 < length.nanos) :
    past.toSeconds.div? length.toSeconds = some (past.toSeconds / length.toSeconds) := by
  refine if_neg fun hzero => ?_
  have hle := ((Bool.and_eq_true ..).mp hzero).1
  have hunits := (length.hasUnits_toSeconds.le_iff hasUnits_zero).mp hle
  exact Nat.not_lt.mpr hunits (Duration.secondUnits_pos hpos)

/-- **No step fails on the way through the stages,** as long as all that lies ahead is a duration. -/
theorem walk?_eq (previous : Nat) (hbegun : active ≤ elapsed)
    (hfits : active.nanos + Duration.totalNanos (stages.map (·.duration)) < Duration.limit) :
    walk? active previous stages elapsed = some (targetIn previous stages (elapsed.minus active)) := by
  induction stages generalizing active previous with
  | nil => rfl
  | cons stage rest ih =>
      rw [List.map_cons, Duration.totalNanos] at hfits
      rw [Duration.le_def] at hbegun
      obtain ⟨ends, hends, hadd⟩ : ∃ ends : Duration, ends.nanos = active.nanos + stage.duration.nanos
          ∧ active.add? stage.duration = some ends := ⟨⟨_, by omega⟩, rfl, dif_pos (by omega)⟩
      have hruns_iff : elapsed.minus active < stage.duration ↔ elapsed < ends := by
        rw [Duration.lt_def, Duration.lt_def, Duration.nanos_minus]
        omega
      simp only [walk?, hadd, targetIn, hruns_iff, Option.bind_eq_bind, Option.bind_some]
      split
      · next hruns =>
        have hsub : elapsed.sub? active = some (elapsed.minus active) := if_pos hbegun
        have hdiv := div?_toSeconds (elapsed.minus active)
          (Nat.lt_of_le_of_lt (Nat.zero_le _) (hruns_iff.mpr hruns))
        rw [hsub, Option.bind_some, hdiv, Option.bind_some]
        rfl
      · next hended =>
        have hrest : (elapsed.minus active).minus stage.duration = elapsed.minus ends := by
          refine Duration.ext ?_
          rw [Duration.nanos_minus, Duration.nanos_minus, Duration.nanos_minus, hends, Nat.sub_sub]
        rw [hrest]
        exact ih stage.target (Nat.not_lt.mp hended) (by omega)

theorem walk?_zero (schedule : Schedule) (elapsed : Duration) :
    walk? .zero 0 schedule.stages elapsed = some (schedule.targetAt elapsed) :=
  walk?_eq 0 (Nat.zero_le _) ((Nat.zero_add _).symm ▸ schedule.fits)

/-! ### The course of a schedule -/

theorem le_foldl_max_iff {n least : Nat} {targets : List Nat} :
    n ≤ targets.foldl max least ↔ n ≤ least ∨ ∃ target ∈ targets, n ≤ target := by
  induction targets generalizing least with
  | nil => simp
  | cons head rest ih => simp [ih, or_assoc]

theorem target_le_maxTarget (h : stage ∈ schedule.stages) : stage.target ≤ schedule.maxTarget :=
  le_foldl_max_iff.mpr (.inr ⟨_, List.mem_map_of_mem h, Nat.le_refl _⟩)

/-- What is known of the number of users at a time of a schedule. -/
structure OnCourse (schedule : Schedule) (elapsed : Duration) : Prop where
  /-- No step fails on the way to it. -/
  computed : walk? .zero 0 schedule.stages elapsed = some (schedule.targetAt elapsed)
  /-- Nor does one on the way to the length of the schedule, which decides whether it has ended. -/
  totalled : Duration.sum? (schedule.stages.map (·.duration)) = some schedule.total
  /-- The schedule has ended exactly if no stage contains the time … -/
  finished_iff : schedule.isFinished elapsed = true ↔ ∀ i stage, ¬ Contains schedule.stages i stage elapsed.nanos
  /-- … and then there are no users. -/
  finished : schedule.isFinished elapsed = true → schedule.targetAt elapsed = 0
  /-- Otherwise exactly one stage does … -/
  running : schedule.isFinished elapsed = false →
    ∃! place : Nat × Stage, Contains schedule.stages place.1 place.2 elapsed.nanos
  /-- … which has a length. -/
  long : ∀ i stage, Contains schedule.stages i stage elapsed.nanos → 0 < stage.duration.nanos
  /-- There are no fewer and no more users than at the ends of the stage. -/
  between : ∀ i stage, Contains schedule.stages i stage elapsed.nanos →
    min (usersBefore 0 schedule.stages i) stage.target ≤ schedule.targetAt elapsed
      ∧ schedule.targetAt elapsed ≤ max (usersBefore 0 schedule.stages i) stage.target
  /-- They only become more in a stage that rises … -/
  rises : ∀ i stage later, Contains schedule.stages i stage elapsed.nanos →
    Contains schedule.stages i stage later.nanos → elapsed ≤ later →
    usersBefore 0 schedule.stages i ≤ stage.target → schedule.targetAt elapsed ≤ schedule.targetAt later
  /-- … and fewer in one that falls. -/
  falls : ∀ i stage later, Contains schedule.stages i stage elapsed.nanos →
    Contains schedule.stages i stage later.nanos → elapsed ≤ later →
    stage.target ≤ usersBefore 0 schedule.stages i → schedule.targetAt later ≤ schedule.targetAt elapsed
  /-- There are never more users than the greatest target. -/
  atMost : schedule.targetAt elapsed ≤ schedule.maxTarget

section Course

theorem partUnits_timeInto_le (h : Contains schedule.stages i stage elapsed.nanos) :
    (schedule.timeInto i elapsed).partUnits stage.duration ≤ one :=
  Duration.partUnits_le_one (Nat.le_of_lt (timeInto_lt h)) h.duration_pos

theorem partUnits_timeInto_mono (hcontains : Contains schedule.stages i stage later.nanos) (h : elapsed ≤ later) :
    (schedule.timeInto i elapsed).partUnits stage.duration
      ≤ (schedule.timeInto i later).partUnits stage.duration := by
  refine Duration.partUnits_mono ?_ hcontains.duration_pos
  rw [Duration.le_def] at h ⊢
  exact Nat.sub_le_sub_right h _

variable (small : ∀ stage ∈ schedule.stages, stage.target ≤ 2 ^ 53)
include small

/-- Within a stage the number of users is the whole part of the line. -/
theorem targetAt_eq (h : Contains schedule.stages i stage elapsed.nanos) :
    schedule.targetAt elapsed = rampUnits (usersBefore 0 schedule.stages i) stage.target
      ((schedule.timeInto i elapsed).partUnits stage.duration) / one := by
  rw [targetAt_of_contains h]
  exact interpolate_eq (h.usersBefore_le small) (small stage h.mem) (Nat.le_of_lt (timeInto_lt h)) h.duration_pos

theorem targetAt_mem (h : Contains schedule.stages i stage elapsed.nanos) :
    min (usersBefore 0 schedule.stages i) stage.target ≤ schedule.targetAt elapsed
      ∧ schedule.targetAt elapsed ≤ max (usersBefore 0 schedule.stages i) stage.target := by
  have hbefore := h.usersBefore_le small
  have htarget := small stage h.mem
  have hpart := partUnits_timeInto_le h
  rw [targetAt_eq small h, Nat.le_div_iff_mul_le Binary64.one_pos]
  rcases Nat.lt_or_ge stage.target (usersBefore 0 schedule.stages i) with hfalls | hrises
  · obtain ⟨hlow, hhigh⟩ := rampUnits_mem_of_lt hfalls hbefore hpart
    rw [Nat.min_eq_right (Nat.le_of_lt hfalls), Nat.max_eq_left (Nat.le_of_lt hfalls)]
    exact ⟨hlow, Nat.div_le_of_le_mul (by rwa [Nat.mul_comm])⟩
  · obtain ⟨hlow, hhigh⟩ := rampUnits_mem_of_le hrises htarget hpart
    rw [Nat.min_eq_left hrises, Nat.max_eq_right hrises]
    exact ⟨hlow, Nat.div_le_of_le_mul (by rwa [Nat.mul_comm])⟩

theorem targetAt_mono (first : Contains schedule.stages i stage elapsed.nanos)
    (second : Contains schedule.stages i stage later.nanos) (h : elapsed ≤ later)
    (rises : usersBefore 0 schedule.stages i ≤ stage.target) :
    schedule.targetAt elapsed ≤ schedule.targetAt later := by
  rw [targetAt_eq small first, targetAt_eq small second]
  exact Nat.div_le_div_right (rampUnits_mono_of_le rises (partUnits_timeInto_mono second h))

theorem targetAt_anti (first : Contains schedule.stages i stage elapsed.nanos)
    (second : Contains schedule.stages i stage later.nanos) (h : elapsed ≤ later)
    (falls : stage.target ≤ usersBefore 0 schedule.stages i) :
    schedule.targetAt later ≤ schedule.targetAt elapsed := by
  rcases Nat.lt_or_eq_of_le falls with hless | hequal
  · rw [targetAt_eq small first, targetAt_eq small second]
    exact Nat.div_le_div_right (rampUnits_anti_of_lt hless (partUnits_timeInto_mono second h))
  · -- On a level stage both numbers are the one that both ends have.
    obtain ⟨-, hhigh⟩ := targetAt_mem small second
    obtain ⟨hlow, -⟩ := targetAt_mem small first
    rw [hequal, Nat.max_self] at hhigh
    rw [hequal, Nat.min_self] at hlow
    exact Nat.le_trans hhigh hlow

/-- **A schedule stays on course at any time.** The number of users and the end of the schedule are computed
without a step that fails; every time before the end is in exactly one stage, which keeps the number of users
between its ends and lets it move in its own direction only; and there are no users behind the end. -/
theorem staysOnCourse (elapsed : Duration) : schedule.OnCourse elapsed where
  computed := walk?_zero schedule elapsed
  totalled := dif_pos schedule.fits
  finished_iff := isFinished_iff_not_contains
  finished := targetAt_of_isFinished
  running unfinished := existsUnique_contains (Nat.not_le.mp fun hended =>
    Bool.eq_false_iff.mp unfinished (isFinished_iff.mpr hended))
  long _ _ h := h.duration_pos
  between _ _ := targetAt_mem small
  rises _ _ _ := targetAt_mono small
  falls _ _ _ := targetAt_anti small
  atMost := by
    by_cases hended : schedule.isFinished elapsed = true
    · exact targetAt_of_isFinished hended ▸ Nat.zero_le _
    · obtain ⟨i, stage, h⟩ := exists_contains (Nat.not_le.mp fun hall => hended (isFinished_iff.mpr hall))
      have hbefore : usersBefore 0 schedule.stages i ≤ schedule.maxTarget :=
        h.usersBefore_le fun stage => target_le_maxTarget
      exact Nat.le_trans (targetAt_mem small h).2 (Nat.max_le.mpr ⟨hbefore, target_le_maxTarget h.mem⟩)

end Course

/-- A schedule that jumps, rises, falls and jumps again. -/
def jagged : Schedule where
  stages := [⟨.zero, 10⟩, ⟨.ofSeconds 3, 100⟩, ⟨.ofSeconds 7, 1⟩, ⟨.zero, 1000⟩, ⟨.ofSeconds 1, 999⟩]
  nonempty := by decide
  fits := by decide

/-- In its falling stage there are 71 users after two of seven seconds, and no more of them after three. -/
theorem jagged_stays_on_course : jagged.OnCourse (.ofSeconds 5) ∧ jagged.targetAt (.ofSeconds 5) = 71
    ∧ jagged.targetAt (.ofSeconds 6) ≤ 71 := by
  have course : jagged.OnCourse (.ofSeconds 5) := staysOnCourse (by decide) (.ofSeconds 5)
  have htarget : jagged.targetAt (.ofSeconds 5) = 71 := by decide +kernel
  refine ⟨course, htarget, htarget ▸ ?_⟩
  exact course.falls 2 ⟨.ofSeconds 7, 1⟩ (.ofSeconds 6) ⟨rfl, by decide, by decide⟩ ⟨rfl, by decide, by decide⟩
    (by decide) (by decide)

end Schedule

end LoadTest
