import LoadTest.Config.Resolve
import LoadTest.Proofs.Fallible
import LoadTest.Proofs.Workload.Random

/-!
# LoadTest.Proofs.Workload.ThinkTime

Pauses and their bounds. Bounds are durations, up to `2 ^ 64` seconds long, but a pause is drawn between
what 64 bits hold of their nanoseconds. **A pause is drawn, and lies between its bounds, exactly if the lower
bound is at most what 64 bits hold of the upper one** (`ThinkTime.pause_between_iff`), as it is wherever the
upper bound is less than `2 ^ 64` nanoseconds, some 584 years. Other bounds have no pause at all, or only
pauses that are too short.
-/

namespace LoadTest

namespace Duration

theorem not_le {a b : Duration} : ¬ a ≤ b ↔ b < a := Nat.not_le

/-- What 64 bits hold of the nanoseconds of a duration. -/
def wordNanos (d : Duration) : Nat := d.nanos % UInt64.size

theorem wordNanos_le (d : Duration) : d.wordNanos ≤ d.nanos := Nat.mod_le ..

theorem wordNanos_lt (d : Duration) : d.wordNanos < UInt64.size := Nat.mod_lt _ (by decide)

theorem wordNanos_eq {d : Duration} (h : d.nanos < UInt64.size) : d.wordNanos = d.nanos :=
  Nat.mod_eq_of_lt h

theorem toNat_ofNat_nanos (d : Duration) : (UInt64.ofNat d.nanos).toNat = d.wordNanos :=
  UInt64.toNat_ofNat'

/-- A number of nanoseconds that has 64 bits is a duration. -/
theorem nanos_ofNanosCapped (n : UInt64) : (ofNanosCapped n.toNat).nanos = n.toNat := by
  have hword : n.toNat < UInt64.size := n.toNat_lt
  have hlimit : UInt64.size ≤ limit - 1 := by decide
  exact Nat.min_eq_left (by omega)

end Duration

namespace ThinkTime

variable {think : ThinkTime} {pause : Duration} {words rest : Workload.Words}

theorem ofBounds_eq_ok_iff {min max : Duration} : ofBounds min max = .ok think ↔ min ≤ max ∧ think = ⟨min, max⟩ := by
  unfold ofBounds
  split
  · next h =>
      simp only [reduceCtorEq, false_iff, not_and]
      exact fun hle => absurd h (Nat.not_lt.mpr hle)
  · next h =>
      have hle : min ≤ max := Nat.not_lt.mp h
      rw [Except.ok.injEq, and_iff_right hle]
      exact eq_comm

/-- Equal bounds are the pause, and no word is taken. -/
theorem sample?_of_le (h : think.max ≤ think.min) : think.sample? words = some (think.min, words) := if_pos h

/-- There is no pause exactly if the lower bound has more nanoseconds than the upper one in 64 bits. -/
theorem sample?_eq_none_iff : think.sample? words = none
    ↔ think.min < think.max ∧ think.max.wordNanos < think.min.wordNanos := by
  unfold sample?
  split
  · next equal => simpa using fun apart : think.min < think.max => absurd equal (Duration.not_le.mpr apart)
  · next apart =>
    have hdraw : words.inRange? (.ofNat think.min.nanos) (.ofNat think.max.nanos) = none
        ↔ think.max.wordNanos < think.min.wordNanos := by
      rw [Workload.Words.inRange?_eq_none_iff, UInt64.lt_iff_toNat_lt, Duration.toNat_ofNat_nanos,
        Duration.toNat_ofNat_nanos]
    rw [and_iff_right (Duration.not_le.mp apart), ← hdraw]
    cases words.inRange? (.ofNat think.min.nanos) (.ofNat think.max.nanos) <;> simp

/-- A pause lies between what 64 bits hold of its bounds. -/
theorem wordNanos_le_of_sample? (apart : think.min < think.max)
    (h : think.sample? words = some (pause, rest)) :
    think.min.wordNanos ≤ pause.nanos ∧ pause.nanos ≤ think.max.wordNanos := by
  unfold sample? at h
  rw [if_neg (Duration.not_le.mpr apart)] at h
  obtain ⟨⟨nanos, rest'⟩, hdraw, hpause⟩ := Option.bind_eq_some_iff.mp h
  obtain ⟨rfl, -⟩ := Prod.mk.inj (Option.some.inj hpause)
  obtain ⟨hlow, hhigh⟩ := Workload.Words.mem_of_inRange? hdraw
  rw [UInt64.le_iff_toNat_le, Duration.toNat_ofNat_nanos] at hlow hhigh
  rw [Duration.nanos_ofNanosCapped]
  exact ⟨hlow, hhigh⟩

/-- The bounds stay in order where it counts: what 64 bits hold of the upper one is no less than the lower one. -/
def Fits (think : ThinkTime) : Prop := think.min = think.max ∨ think.min.nanos ≤ think.max.wordNanos

instance (think : ThinkTime) : Decidable think.Fits :=
  inferInstanceAs (Decidable (think.min = think.max ∨ think.min.nanos ≤ think.max.wordNanos))

/-- Bounds in order fit if the upper one has 64 bits. -/
theorem fits_of_lt (inOrder : think.min ≤ think.max) (h : think.max.nanos < UInt64.size) : think.Fits := by
  refine .inr ?_
  rw [Duration.wordNanos_eq h]
  exact inOrder

/-- A lower bound that fits has 64 bits. -/
theorem wordNanos_min_of_le (h : think.min.nanos ≤ think.max.wordNanos) :
    think.min.wordNanos = think.min.nanos :=
  Duration.wordNanos_eq (Nat.lt_of_le_of_lt h think.max.wordNanos_lt)

/-- Bounds that fit have pauses, whatever the words are. -/
theorem exists_sample? (fits : think.Fits) : ∃ pause rest, think.sample? words = some (pause, rest)
    ∧ think.min ≤ pause ∧ pause ≤ think.max := by
  by_cases equal : think.max ≤ think.min
  · refine ⟨think.min, words, sample?_of_le equal, Nat.le_refl _, ?_⟩
    rcases fits with same | hle
    · exact Nat.le_of_eq (congrArg Duration.nanos same)
    · exact Nat.le_trans hle think.max.wordNanos_le
  · have apart : think.min < think.max := Duration.not_le.mp equal
    have hle : think.min.nanos ≤ think.max.wordNanos := by
      refine fits.resolve_left fun same => ?_
      rw [same] at apart
      exact Nat.lt_irrefl _ apart
    have hword := wordNanos_min_of_le hle
    cases hsample : think.sample? words with
    | none =>
        have hless := (sample?_eq_none_iff.mp hsample).2
        omega
    | some drawn =>
        obtain ⟨hlow, hhigh⟩ := wordNanos_le_of_sample? apart hsample
        rw [hword] at hlow
        exact ⟨drawn.1, drawn.2, rfl, hlow, Nat.le_trans hhigh think.max.wordNanos_le⟩

/-- Bounds that do not fit have no pause, or pauses that are too short. -/
theorem sample?_lt (inOrder : think.min ≤ think.max) (unfit : ¬ think.Fits)
    (h : think.sample? words = some (pause, rest)) : pause < think.min := by
  obtain ⟨differ, hless⟩ := not_or.mp unfit
  have apart : think.min < think.max :=
    Nat.lt_of_le_of_ne inOrder fun same => differ (Duration.ext same)
  obtain ⟨-, hhigh⟩ := wordNanos_le_of_sample? apart h
  exact Nat.lt_of_le_of_lt hhigh (Nat.not_le.mp hless)

/-- **When a pause respects its bounds.** Of bounds that are accepted, and whatever the words are: a pause is
drawn and lies between them exactly if they fit, in particular if the upper one is less than `2 ^ 64`
nanoseconds. It is exactly the order of what 64 bits hold of the bounds that decides whether a pause is drawn
at all; and of bounds that do not fit, it is shorter than the lower one. -/
theorem pause_between_iff {min max : Duration} (accepted : ofBounds min max = .ok think)
    (words : Workload.Words) :
    ((∃ pause rest, think.sample? words = some (pause, rest) ∧ min ≤ pause ∧ pause ≤ max) ↔ think.Fits)
      ∧ (max.nanos < UInt64.size → think.Fits)
      ∧ (think.sample? words = none ↔ min < max ∧ max.wordNanos < min.wordNanos)
      ∧ ∀ pause rest, ¬ think.Fits → think.sample? words = some (pause, rest) → pause < min := by
  obtain ⟨inOrder, hthink⟩ := ofBounds_eq_ok_iff.mp accepted
  obtain ⟨rfl, rfl⟩ : min = think.min ∧ max = think.max := by simp [hthink]
  refine ⟨⟨?_, exists_sample?⟩, fits_of_lt inOrder, sample?_eq_none_iff, fun pause rest => sample?_lt inOrder⟩
  rintro ⟨pause, rest, hsample, hlow, -⟩
  exact Decidable.byContradiction fun unfit => Nat.not_lt.mpr hlow (sample?_lt inOrder unfit hsample)

/-- Words of which a draw rejects some. -/
def wasteful : Workload.Words := ⟨[0xffffffffffffffff, 0xffffffffffffffff, 7], 0⟩

/-- Between half a second and two seconds there is a pause, also where words are rejected. -/
theorem half_second_to_two : ∃ think, ofBounds (.ofMillis 500) (.ofSeconds 2) = .ok think
    ∧ ∃ pause rest, think.sample? wasteful = some (pause, rest)
      ∧ .ofMillis 500 ≤ pause ∧ pause ≤ .ofSeconds 2 := by
  have accepted : ofBounds (.ofMillis 500) (.ofSeconds 2) = .ok ⟨.ofMillis 500, .ofSeconds 2⟩ := rfl
  obtain ⟨drawn_iff, fits, -⟩ := pause_between_iff accepted wasteful
  exact ⟨_, accepted, drawn_iff.mpr (fits (by decide))⟩

/-- **A configuration can ask for pauses that nobody can make.** From one second to 18446744074 seconds no pause
is drawn at all; from that many seconds to one more, one of less than a second. -/
theorem long_bounds_fail :
    (∃ think, Config.resolveThinkTime .couponIssue (some ⟨"1s", "18446744074s"⟩) = .ok think
        ∧ ∀ words, think.sample? words = none)
      ∧ ∃ think, Config.resolveThinkTime .couponIssue (some ⟨"18446744074s", "18446744075s"⟩) = .ok think
        ∧ ∃ pause rest, think.sample? wasteful = some (pause, rest) ∧ pause < .ofSeconds 1 := by
  have hfirst : (Config.resolveThinkTime .couponIssue (some ⟨"1s", "18446744074s"⟩)).toOption.any
      fun think => decide (think = ⟨.ofSeconds 1, .ofSeconds 18446744074⟩) := by decide +kernel
  have hsecond : (Config.resolveThinkTime .couponIssue (some ⟨"18446744074s", "18446744075s"⟩)).toOption.any
      fun think => (think.sample? wasteful).any fun drawn => decide (drawn.1 < .ofSeconds 1) := by decide +kernel
  obtain ⟨think, hthink, heq⟩ := exists_ok_of_any hfirst
  obtain ⟨long, hlong, hpause⟩ := exists_ok_of_any hsecond
  obtain ⟨⟨pause, rest⟩, hsample, hshort⟩ := (Option.any_eq_true ..).mp hpause
  refine ⟨⟨think, hthink, fun words => ?_⟩, long, hlong, pause, rest, hsample, by simpa using hshort⟩
  rw [of_decide_eq_true heq]
  exact sample?_eq_none_iff.mpr (by decide)

end ThinkTime

end LoadTest
