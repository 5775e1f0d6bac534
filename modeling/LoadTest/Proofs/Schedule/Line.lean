import LoadTest.Proofs.Number.Closeness
import LoadTest.Proofs.Schedule.Ramp
import Mathlib.Algebra.Order.Floor.Semifield
import Mathlib.Data.Rat.Floor

/-!
# LoadTest.Proofs.Schedule.Line

How near the number of users is to the straight line. The line of a stage leads from the users before it to its
target, evenly over its length; the number of users is meant to be its whole part. Seven roundings lie between
the two, so **the number is the whole part of the line unless the line comes within `2 ^ -50` of the greater end
of a whole number** (`Schedule.abs_amount_sub_line_le`, `Schedule.follows_line`). Near a whole number one user may
be missing, or be there too early: of 50 users over five seconds the seventh is late
(`Schedule.seventh_user_is_late`).
-/

namespace LoadTest

open Binary64

-- The number of units in one has a thousand binary digits, and no step here is to write them out.
attribute [local irreducible] Binary64.one

/-! ### Durations and their parts -/

namespace Duration

variable {elapsed length : Duration}

theorem restUnits_large (nanos : Nat) :
    nanos * one * one = 0 ∨ 2 ^ 52 * (1_000_000_000 * one) ≤ nanos * one * one := by
  rcases Nat.eq_zero_or_pos nanos with rfl | hpos
  · exact .inl (by simp)
  · have hone : 2 ^ 52 * 1_000_000_000 ≤ one := Nat.le_trans (by decide) (two_pow_le_one (k := 82) (by decide))
    right
    calc 2 ^ 52 * (1_000_000_000 * one)
        _ = 2 ^ 52 * 1_000_000_000 * one := by ring
        _ ≤ one * one := Nat.mul_le_mul_right _ hone
        _ ≤ nanos * one * one := Nat.mul_le_mul_right _ (Nat.le_mul_of_pos_left _ hpos)

theorem nano_pos : 0 < 1_000_000_000 * one := Nat.mul_pos (by decide) Binary64.one_pos

theorem close_restUnits (nanos : Nat) : Close 1 (amount (restUnits nanos)) (nanos / 10 ^ 9) := by
  have hclose := close_amount nano_pos (restUnits_large nanos)
  have hexact : amount (nanos * one * one) / (1_000_000_000 * one : Nat) = (nanos / 10 ^ 9 : ℚ) := by
    have hone := one_cast_pos.ne'
    rw [amount_mul_one]
    push_cast
    field_simp
    norm_num
  rwa [hexact] at hclose

theorem sizable_sum (d : Duration) : Sizable (roundUnits (d.seconds * one) 1 + restUnits d.subsecond) := by
  refine Sizable.add (sizable_roundUnits Nat.one_pos ?_) (sizable_roundUnits nano_pos (restUnits_large _))
  rw [Nat.mul_one]
  exact sizable_mul_one d.seconds

/-- Whole seconds and the rest are rounded apart and then together, so the seconds of a duration are two roundings
away. -/
theorem close_secondUnits (d : Duration) : Close 2 (amount d.secondUnits) (d.nanos / 10 ^ 9) := by
  have hnanos : (d.nanos : ℚ) / 10 ^ 9 = d.seconds + d.subsecond / 10 ^ 9 := by
    have hsplit : (d.nanos : ℚ) = 10 ^ 9 * d.seconds + d.subsecond := by exact_mod_cast d.nanos_eq
    rw [hsplit]
    field_simp
  have hsum := (close_whole d.seconds).add (close_restUnits d.subsecond)
  rw [← amount_add, ← hnanos] at hsum
  exact d.sizable_sum.close_amount.trans hsum

/-- A part of a duration is so large that a rounding of it is close. -/
theorem partUnits_large (elapsed : Duration) (length : Duration) :
    elapsed.secondUnits * one = 0 ∨ 2 ^ 52 * length.secondUnits ≤ elapsed.secondUnits * one := by
  rcases Nat.eq_zero_or_pos elapsed.secondUnits with hnone | hpos
  · exact .inl (by rw [hnone, Nat.zero_mul])
  · right
    have hone := two_pow_le_one (k := 146) (by decide)
    have hlarge := one_le_secondUnits hpos
    refine Nat.le_of_mul_le_mul_left ?_ (Nat.two_pow_pos 30)
    calc 2 ^ 30 * (2 ^ 52 * length.secondUnits)
        _ ≤ 2 ^ 30 * (2 ^ 52 * (2 ^ 64 * one)) := by gcongr; exact length.secondUnits_le_limit
        _ = 2 ^ 146 * one := by ring
        _ ≤ one * one := Nat.mul_le_mul_right _ hone
        _ ≤ 2 ^ 30 * elapsed.secondUnits * one := Nat.mul_le_mul_right _ hlarge
        _ = 2 ^ 30 * (elapsed.secondUnits * one) := by ring

theorem sizable_partUnits (elapsed : Duration) (hpos : 0 < length.nanos) : Sizable (partUnits elapsed length) :=
  sizable_roundUnits (secondUnits_pos hpos) (partUnits_large elapsed length)

/-- The part that one duration is of another is five roundings away. -/
theorem close_partUnits (elapsed : Duration) (hpos : 0 < length.nanos) :
    Close 5 (amount (partUnits elapsed length)) (elapsed.nanos / length.nanos) := by
  have hlength := secondUnits_pos hpos
  have hlengthNanos : (0 : ℚ) < length.nanos := by exact_mod_cast hpos
  have hrounded := close_amount hlength (partUnits_large elapsed length)
  have hquotient := elapsed.close_secondUnits.div length.close_secondUnits (amount_nonneg _) (by positivity)
    (amount_pos hlength) (by positivity)
  have hunits : amount (elapsed.secondUnits * one) / length.secondUnits
      = amount elapsed.secondUnits / amount length.secondUnits := by
    have hone := one_cast_pos.ne'
    rw [amount_mul_one, amount, amount]
    field_simp
  have hnanos : (elapsed.nanos / 10 ^ 9 : ℚ) / (length.nanos / 10 ^ 9) = elapsed.nanos / length.nanos := by
    field_simp
  rw [hunits] at hrounded
  rw [hnanos] at hquotient
  exact hrounded.trans hquotient

end Duration

/-! ### The line -/

namespace Stage

/-- Where the straight line of a stage is, so far into it. -/
def line (before : Nat) (stage : Stage) (past : Duration) : ℚ :=
  before + ((stage.target : ℚ) - before) * (past.nanos / stage.duration.nanos)

/-- How far from the line the number is at most that is computed for it. -/
def tolerance (before : Nat) (stage : Stage) : ℚ := max before stage.target / 2 ^ 50

end Stage

namespace Schedule

open Stage

variable {before target part users : Nat} {past : Duration} {stage : Stage}

theorem shareUnits_large (users : Nat) (hpart : Sizable part) :
    users * one * part = 0 ∨ 2 ^ 52 * one ≤ users * one * part := by
  rcases Nat.eq_zero_or_pos users with rfl | husers
  · exact .inl (by simp)
  · refine hpart.imp (fun hnone => by rw [hnone, Nat.mul_zero]) fun hlarge => ?_
    calc 2 ^ 52 * one
        _ ≤ part * one := Nat.mul_le_mul_right _ hlarge
        _ ≤ users * (part * one) := Nat.le_mul_of_pos_left _ husers
        _ = users * one * part := by ring

section Share

variable {share : ℚ} (hpart : Sizable part) (hshare : Close 5 (amount part) share) (hnonneg : 0 ≤ share)
include hpart hshare hnonneg

/-- A part of some users is one more rounding away than the part. -/
theorem close_shareUnits (users : Nat) : Close 6 (amount (shareUnits users part)) (users * share) := by
  have hunits : amount (users * one * part) / one = users * amount part := by
    have hone := one_cast_pos.ne'
    rw [amount, amount]
    push_cast
    field_simp
  have hrounded := close_amount Binary64.one_pos (shareUnits_large users hpart)
  rw [hunits] at hrounded
  exact hrounded.trans
    ((close_self (users : ℚ)).mul hshare (Nat.cast_nonneg _) (Nat.cast_nonneg _) (amount_nonneg _) hnonneg)

/-- Upwards all errors are relative: the number is seven roundings away from the line. -/
theorem close_rampUnits (h : before ≤ target) :
    Close 7 (amount (rampUnits before target part)) (before + (target - before : Nat) * share) := by
  have hsum : Sizable (before * one + shareUnits (target - before) part) :=
    (sizable_mul_one before).add (sizable_roundUnits Binary64.one_pos (shareUnits_large _ hpart))
  have hexact := ((close_self (before : ℚ)).mono (Nat.zero_le 6) (Nat.cast_nonneg _) (Nat.cast_nonneg _)).add
    (close_shareUnits hpart hshare hnonneg (target - before))
  have hrounded := hsum.close_amount
  rw [amount_add, amount_mul_one] at hrounded
  rw [rampUnits, if_pos h]
  exact hrounded.trans hexact

variable (hone : share ≤ 1) (hpartOne : part ≤ one)
include hone hpartOne

theorem abs_rampUnits_sub_le_of_le (h : before ≤ target) (htarget : target ≤ 2 ^ 53) :
    |amount (rampUnits before target part) - (before + (target - before : Nat) * share)| ≤ target / 2 ^ 50 := by
  have hmost : amount (rampUnits before target part) ≤ target := by
    have hle := amount_mono (rampUnits_mem_of_le h htarget hpartOne).2
    rwa [amount_mul_one] at hle
  have hline : before + ((target - before : Nat) : ℚ) * share ≤ target := by
    have hway : (before : ℚ) + (target - before : Nat) = target := by exact_mod_cast Nat.add_sub_of_le h
    have hshort := mul_le_mul_of_nonneg_left hone (Nat.cast_nonneg (α := ℚ) (target - before))
    linarith
  have hfactor : (1 + roundoff) ^ 7 - 1 ≤ 1 / 2 ^ 50 := by norm_num [roundoff]
  refine ((close_rampUnits hpart hshare hnonneg h).abs_sub_le hmost hline).trans ?_
  rw [div_eq_mul_one_div]
  exact mul_le_mul_of_nonneg_left hfactor (Nat.cast_nonneg _)

/-- Downwards the error of the part that is taken away and that of what is left add up. -/
theorem abs_rampUnits_sub_le_of_lt (h : target < before) (hbefore : before ≤ 2 ^ 53) :
    |amount (rampUnits before target part) - (before - (before - target : Nat) * share)| ≤ before / 2 ^ 50 := by
  have hle := shareUnits_le (Nat.le_trans (Nat.sub_le before target) hbefore) hpartOne
  have hless := Nat.mul_le_mul_right one (Nat.sub_le before target)
  have hway : ((before - target : Nat) : ℚ) ≤ before := by exact_mod_cast Nat.sub_le before target
  have hleft : |amount (rampUnits before target part)
      - (before - amount (shareUnits (before - target) part))| ≤ before * roundoff := by
    have herror := abs_amount_sub_le (show 0 < before by omega)
      (Nat.sub_le (before * one) (shareUnits (before - target) part))
    rw [rampUnits, if_neg (Nat.not_le.mpr h)]
    rwa [amount_sub (Nat.le_trans hle hless), amount_mul_one] at herror
  have htaken : |amount (shareUnits (before - target) part) - (before - target : Nat) * share|
      ≤ before * ((1 + roundoff) ^ 6 - 1) := by
    refine (close_shareUnits hpart hshare hnonneg (before - target)).abs_sub_le ?_ ?_
    · have hmost := amount_mono hle
      rw [amount_mul_one] at hmost
      exact hmost.trans hway
    · have hshort := mul_le_mul_of_nonneg_left hone (Nat.cast_nonneg (α := ℚ) (before - target))
      linarith
  have hfactor : before * (roundoff + ((1 + roundoff) ^ 6 - 1)) ≤ (before : ℚ) / 2 ^ 50 := by
    rw [div_eq_mul_one_div]
    exact mul_le_mul_of_nonneg_left (by norm_num [roundoff]) (Nat.cast_nonneg _)
  rw [abs_sub_le_iff] at hleft htaken ⊢
  constructor <;> linarith

end Share

/-- **What is computed is near the line.** -/
theorem abs_amount_sub_line_le (hbefore : before ≤ 2 ^ 53) (htarget : stage.target ≤ 2 ^ 53)
    (hpast : past ≤ stage.duration) (hpos : 0 < stage.duration.nanos) :
    |amount (rampUnits before stage.target (past.partUnits stage.duration)) - stage.line before past|
      ≤ stage.tolerance before := by
  have hlength : (0 : ℚ) < stage.duration.nanos := by exact_mod_cast hpos
  have hpart := Duration.sizable_partUnits past hpos
  have hshare := Duration.close_partUnits past hpos
  have hnonneg : (0 : ℚ) ≤ past.nanos / stage.duration.nanos := by positivity
  have hone : (past.nanos / stage.duration.nanos : ℚ) ≤ 1 := by
    rw [div_le_one hlength]
    exact_mod_cast hpast
  have hpartOne := Duration.partUnits_le_one hpast hpos
  rw [line, tolerance]
  rcases Nat.lt_or_ge stage.target before with hfalls | hrises
  · have herror := abs_rampUnits_sub_le_of_lt hpart hshare hnonneg hone hpartOne hfalls hbefore
    rw [Nat.cast_sub hfalls.le] at herror
    rw [max_eq_left (by exact_mod_cast hfalls.le)]
    convert herror using 3
    ring
  · have herror := abs_rampUnits_sub_le_of_le hpart hshare hnonneg hone hpartOne hrises htarget
    rw [Nat.cast_sub hrises] at herror
    rwa [max_eq_right (by exact_mod_cast hrises)]

/-! ### Whole parts -/

variable {schedule : Schedule} {elapsed : Duration} {i : Nat}

/-- Where the line is at a time of a stage. -/
def lineAt (schedule : Schedule) (i : Nat) (stage : Stage) (elapsed : Duration) : ℚ :=
  stage.line (usersBefore 0 schedule.stages i) (schedule.timeInto i elapsed)

/-- What the number of users has to do with the whole part of the line, in a stage of moderate targets. -/
structure Follows (schedule : Schedule) (i : Nat) (stage : Stage) (elapsed : Duration) : Prop where
  /-- There is never more than one user too many, and never more than one missing. -/
  near : schedule.targetAt elapsed ≤ ⌊schedule.lineAt i stage elapsed⌋₊ + 1
    ∧ ⌊schedule.lineAt i stage elapsed⌋₊ ≤ schedule.targetAt elapsed + 1
  /-- The number is exact where the line keeps away from whole numbers … -/
  exact_of_apart : ⌊schedule.lineAt i stage elapsed⌋₊ + 1 / 2 ^ 18 ≤ schedule.lineAt i stage elapsed →
    schedule.lineAt i stage elapsed + 1 / 2 ^ 18 < ⌊schedule.lineAt i stage elapsed⌋₊ + 1 →
    schedule.targetAt elapsed = ⌊schedule.lineAt i stage elapsed⌋₊
  /-- … where the stage begins … -/
  exact_of_begin : elapsed.nanos = begins schedule.stages i →
    schedule.targetAt elapsed = ⌊schedule.lineAt i stage elapsed⌋₊
  /-- … and where it is level. -/
  exact_of_level : usersBefore 0 schedule.stages i = stage.target →
    schedule.targetAt elapsed = ⌊schedule.lineAt i stage elapsed⌋₊
  /-- In a stage that is not too long for its targets no user is too early … -/
  short : stage.duration.nanos * max (usersBefore 0 schedule.stages i) stage.target < 2 ^ 50 →
    schedule.targetAt elapsed ≤ ⌊schedule.lineAt i stage elapsed⌋₊
  /-- … and one is missing at most where the line is at a whole number. -/
  exact_of_short : stage.duration.nanos * max (usersBefore 0 schedule.stages i) stage.target < 2 ^ 50 →
    schedule.lineAt i stage elapsed ≠ ⌊schedule.lineAt i stage elapsed⌋₊ →
    schedule.targetAt elapsed = ⌊schedule.lineAt i stage elapsed⌋₊

/-- The line in whole numbers: so many users for each nanosecond that is left, and so many for each that is over. -/
theorem line_eq_div (hpast : past ≤ stage.duration) (hpos : 0 < stage.duration.nanos) :
    stage.line before past
      = (before * (stage.duration.nanos - past.nanos) + stage.target * past.nanos : Nat) / stage.duration.nanos := by
  have hlength : (stage.duration.nanos : ℚ) ≠ 0 := by exact_mod_cast hpos.ne'
  rw [line]
  push_cast [Nat.cast_sub hpast]
  field_simp
  ring

theorem lineAt_nonneg (h : Contains schedule.stages i stage elapsed.nanos) : 0 ≤ schedule.lineAt i stage elapsed := by
  rw [lineAt, line_eq_div (Nat.le_of_lt (timeInto_lt h)) h.duration_pos]
  positivity

section Moderate

variable (small : ∀ stage ∈ schedule.stages, stage.target ≤ 2 ^ 53)
  (h : Contains schedule.stages i stage elapsed.nanos)
include small h

/-- The number of users in a stage, between the ends of the tolerance. -/
theorem targetAt_near_line :
    (schedule.targetAt elapsed : ℚ)
        ≤ schedule.lineAt i stage elapsed + stage.tolerance (usersBefore 0 schedule.stages i)
      ∧ schedule.lineAt i stage elapsed - stage.tolerance (usersBefore 0 schedule.stages i)
        < schedule.targetAt elapsed + 1 := by
  have herror := abs_amount_sub_line_le (h.usersBefore_le small) (small stage h.mem)
    (Nat.le_of_lt (timeInto_lt h)) h.duration_pos
  rw [abs_sub_le_iff] at herror
  have hone := one_cast_pos
  rw [targetAt_eq small h, lineAt]
  generalize rampUnits _ _ _ = units at herror ⊢
  have hlow : ((units / one : Nat) : ℚ) ≤ amount units := Nat.cast_div_le
  have hhigh : amount units < (units / one : Nat) + 1 := by
    rw [amount, div_lt_iff₀ hone]
    exact_mod_cast Nat.lt_mul_of_div_lt (Nat.lt_succ_self _) Binary64.one_pos
  constructor <;> linarith

theorem targetAt_of_level (level : usersBefore 0 schedule.stages i = stage.target) :
    schedule.targetAt elapsed = ⌊schedule.lineAt i stage elapsed⌋₊ := by
  obtain ⟨hlow, hhigh⟩ := targetAt_mem small h
  rw [level, Nat.min_self] at hlow
  rw [level, Nat.max_self] at hhigh
  rw [lineAt, line, level, sub_self, zero_mul, add_zero, Nat.floor_natCast]
  exact Nat.le_antisymm hhigh hlow

theorem targetAt_of_begin (begun : elapsed.nanos = begins schedule.stages i) :
    schedule.targetAt elapsed = ⌊schedule.lineAt i stage elapsed⌋₊ := by
  have hnone : schedule.timeInto i elapsed = .zero := Duration.ext (by
    rw [nanos_timeInto, begun, Nat.sub_self]
    rfl)
  have hpart : Duration.partUnits .zero stage.duration = 0 := by simp [Duration.partUnits]
  have hline : stage.line (usersBefore 0 schedule.stages i) .zero = usersBefore 0 schedule.stages i := by
    simp [line, Duration.zero]
  rw [targetAt_eq small h, lineAt, hnone, hline, hpart, rampUnits_zero _ (h.usersBefore_le small),
    Nat.mul_div_cancel _ Binary64.one_pos, Nat.floor_natCast]

/-- Where the tolerance is less than the line gains or loses in a nanosecond, it never bridges the gap between the
line and a whole number. -/
theorem targetAt_of_short
    (short : stage.duration.nanos * max (usersBefore 0 schedule.stages i) stage.target < 2 ^ 50) :
    schedule.targetAt elapsed ≤ ⌊schedule.lineAt i stage elapsed⌋₊
      ∧ (schedule.lineAt i stage elapsed ≠ ⌊schedule.lineAt i stage elapsed⌋₊ →
        schedule.targetAt elapsed = ⌊schedule.lineAt i stage elapsed⌋₊) := by
  have hlength : (0 : ℚ) < stage.duration.nanos := by exact_mod_cast h.duration_pos
  obtain ⟨hmost, hleast⟩ := targetAt_near_line small h
  have hgap : stage.duration.nanos * stage.tolerance (usersBefore 0 schedule.stages i) < 1 := by
    rw [tolerance, mul_div_assoc', div_lt_one (by positivity)]
    exact_mod_cast short
  -- On both sides stand whole numbers of users times nanoseconds, so what is less is less by one.
  obtain ⟨total, hline⟩ : ∃ total : Nat, schedule.lineAt i stage elapsed = total / stage.duration.nanos :=
    ⟨_, line_eq_div (Nat.le_of_lt (timeInto_lt h)) h.duration_pos⟩
  rw [hline, Nat.floor_div_eq_div]
  rw [hline] at hmost hleast
  generalize schedule.targetAt elapsed = users at *
  generalize stage.duration.nanos = length at *
  have hpos : 0 < length := by exact_mod_cast hlength
  have hmost : users * length < total + 1 := by
    have hscaled := mul_le_mul_of_nonneg_right hmost hlength.le
    rw [add_mul, div_mul_cancel₀ _ hlength.ne'] at hscaled
    have : (users : ℚ) * length < total + 1 := by linarith
    exact_mod_cast this
  have hfloor : users ≤ total / length := (Nat.le_div_iff_mul_le hpos).mpr (Nat.lt_succ_iff.mp hmost)
  refine ⟨hfloor, fun hpart => ?_⟩
  have hleast : total < (users + 1) * length + 1 := by
    have hscaled := mul_lt_mul_of_pos_right hleast hlength
    rw [sub_mul, div_mul_cancel₀ _ hlength.ne'] at hscaled
    have : (total : ℚ) < (users + 1) * length + 1 := by linarith
    exact_mod_cast this
  refine Nat.le_antisymm hfloor (Nat.lt_succ_iff.mp ((Nat.div_lt_iff_lt_mul hpos).mpr ?_))
  refine Nat.lt_of_le_of_ne (Nat.lt_succ_iff.mp hleast) ?_
  rintro rfl
  rw [Nat.mul_div_cancel _ hpos] at hpart
  push_cast at hpart
  exact hpart (mul_div_cancel_right₀ _ hlength.ne')

end Moderate

/-- **The number of users follows the line.** In stages of at most `2 ^ 32` users it is the whole part of the line
where the line is not nearer than `2 ^ -18` to a whole number, and it is off by one at most anywhere. Behind the
last stage there are none. -/
theorem follows_line (moderate : ∀ stage ∈ schedule.stages, stage.target ≤ 2 ^ 32) (elapsed : Duration) :
    (∀ i stage, Contains schedule.stages i stage elapsed.nanos → schedule.Follows i stage elapsed)
      ∧ (schedule.isFinished elapsed = true → schedule.targetAt elapsed = 0) := by
  have small : ∀ stage ∈ schedule.stages, stage.target ≤ 2 ^ 53 := fun stage mem =>
    Nat.le_trans (moderate stage mem) (by decide)
  refine ⟨fun i stage h => ?_, targetAt_of_isFinished⟩
  obtain ⟨hmost, hleast⟩ := targetAt_near_line small h
  have htolerance : stage.tolerance (usersBefore 0 schedule.stages i) ≤ 1 / 2 ^ 18 := by
    have hmax : max (usersBefore 0 schedule.stages i) stage.target ≤ 2 ^ 32 :=
      Nat.max_le.mpr ⟨h.usersBefore_le moderate, moderate stage h.mem⟩
    have hcast := Nat.cast_le (α := ℚ).mpr hmax
    rw [Nat.cast_pow, Nat.cast_ofNat] at hcast
    rw [tolerance, div_le_div_iff₀ (by positivity) (by positivity)]
    linarith
  have hfloor := Nat.floor_le (lineAt_nonneg h)
  have hceil := Nat.lt_floor_add_one (schedule.lineAt i stage elapsed)
  exact {
    near := by
      have habove : (schedule.targetAt elapsed : ℚ) < ⌊schedule.lineAt i stage elapsed⌋₊ + 2 := by linarith
      have hbelow : (⌊schedule.lineAt i stage elapsed⌋₊ : ℚ) < schedule.targetAt elapsed + 2 := by linarith
      exact ⟨Nat.lt_succ_iff.mp (by exact_mod_cast habove), Nat.lt_succ_iff.mp (by exact_mod_cast hbelow)⟩
    exact_of_apart := fun hlow hhigh => by
      have habove : (schedule.targetAt elapsed : ℚ) < ⌊schedule.lineAt i stage elapsed⌋₊ + 1 := by linarith
      have hbelow : (⌊schedule.lineAt i stage elapsed⌋₊ : ℚ) < schedule.targetAt elapsed + 1 := by linarith
      exact Nat.le_antisymm (Nat.lt_succ_iff.mp (by exact_mod_cast habove))
        (Nat.lt_succ_iff.mp (by exact_mod_cast hbelow))
    exact_of_begin := targetAt_of_begin small h
    exact_of_level := targetAt_of_level small h
    short := fun hshort => (targetAt_of_short small h hshort).1
    exact_of_short := fun hshort => (targetAt_of_short small h hshort).2 }

/-- Fifty users over five seconds. -/
def fifty : Schedule := ⟨[⟨.ofSeconds 5, 50⟩], by decide, by decide⟩

theorem lineAt_fifty {elapsed : Duration} (millis : Nat) (h : elapsed.nanos = millis * 1_000_000) :
    fifty.lineAt 0 ⟨.ofSeconds 5, 50⟩ elapsed = millis / 100 := by
  have hlength : (Duration.ofSeconds 5).nanos = 5_000_000_000 := by decide
  have hbefore : usersBefore 0 fifty.stages 0 = 0 := rfl
  rw [lineAt, line, nanos_timeInto, hbefore, begins_zero, Nat.sub_zero, h, hlength]
  push_cast
  ring

/-- After 777 milliseconds the line has passed the seventh user, and there are seven. -/
theorem seven_of_fifty : fifty.lineAt 0 ⟨.ofSeconds 5, 50⟩ (.ofMillis 777) = 777 / 100
    ∧ fifty.targetAt (.ofMillis 777) = 7 := by
  have hline : fifty.lineAt 0 ⟨.ofSeconds 5, 50⟩ (.ofMillis 777) = 777 / 100 :=
    lineAt_fifty 777 (by decide)
  have hfloor : ⌊(777 / 100 : ℚ)⌋₊ = 7 := by norm_num
  have follows : fifty.Follows 0 ⟨.ofSeconds 5, 50⟩ (.ofMillis 777) :=
    (follows_line (by decide) (.ofMillis 777)).1 0 ⟨.ofSeconds 5, 50⟩ ⟨rfl, by decide, by decide⟩
  have hexact := follows.exact_of_apart
  rw [hline, hfloor] at hexact
  exact ⟨hline, hexact (by norm_num) (by norm_num)⟩

/-- **A user can be late.** After 700 milliseconds the line is at seven users exactly, and there are six. -/
theorem seventh_user_is_late : Contains fifty.stages 0 ⟨.ofSeconds 5, 50⟩ (Duration.ofMillis 700).nanos
    ∧ fifty.lineAt 0 ⟨.ofSeconds 5, 50⟩ (.ofMillis 700) = 7 ∧ fifty.targetAt (.ofMillis 700) = 6 := by
  have hline : fifty.lineAt 0 ⟨.ofSeconds 5, 50⟩ (.ofMillis 700) = (700 : Nat) / 100 :=
    lineAt_fifty 700 (by decide)
  exact ⟨⟨rfl, by decide, by decide⟩, hline.trans (by norm_num), by decide +kernel⟩

-- And one can be early: over three years the only user is due at the very end, and there a nanosecond before it.
example : (⟨[⟨.ofSeconds (10 ^ 8), 1⟩], by decide, by decide⟩ : Schedule).targetAt ⟨10 ^ 17 - 1, by decide⟩ = 1 := by
  decide +kernel

end Schedule

end LoadTest
