import LoadTest.Duration.Basic
import LoadTest.Proofs.Number.Finite

/-!
# LoadTest.Proofs.Duration.Seconds

Durations in seconds, as doubles. **A longer duration never has fewer seconds** (`secondUnits_mono`),
although whole seconds and the rest are converted apart, and beyond `2 ^ 53` seconds a rest of less than a
second changes nothing. So a bound on durations is one on their seconds.
-/

namespace LoadTest.Duration

open Binary64

-- The number of units in one has a thousand binary digits, and no step here is to write them out.
attribute [local irreducible] Binary64.one

/-- The units of so many nanoseconds, less than a second of them. -/
def restUnits (nanos : Nat) : Nat := roundUnits (nanos * one * one) (1_000_000_000 * one)

/-- The units of a duration in seconds. -/
def secondUnits (d : Duration) : Nat :=
  roundUnits (roundUnits (d.seconds * one) 1 + restUnits d.subsecond) 1

theorem subsecond_lt (d : Duration) : d.subsecond < 1_000_000_000 := Nat.mod_lt _ (by decide)

theorem seconds_lt (d : Duration) : d.seconds < 2 ^ 64 :=
  Nat.div_lt_of_lt_mul (by simpa [limit, UInt64.size, Nat.mul_comm] using d.nanos_lt)

theorem nanos_eq (d : Duration) : d.nanos = 1_000_000_000 * d.seconds + d.subsecond :=
  (Nat.div_add_mod d.nanos 1_000_000_000).symm

theorem restUnits_mono {a b : Nat} (h : a ≤ b) : restUnits a ≤ restUnits b := by
  have hpos : 0 < 1_000_000_000 * one := Nat.mul_pos (by decide) one_pos
  exact roundUnits_mono hpos hpos (by gcongr)

/-- What is beyond the whole seconds is less than a second. -/
theorem restUnits_lt {nanos : Nat} (h : nanos < 1_000_000_000) : restUnits nanos < one := by
  have hmost : restUnits 999_999_999 < one := by decide +kernel
  exact Nat.lt_of_le_of_lt (restUnits_mono (by omega)) hmost

theorem roundUnits_seconds_le {n : Nat} (h : n ≤ 2 ^ 64) : roundUnits (n * one) 1 ≤ 2 ^ 64 * one :=
  roundUnits_le (representable_two_pow_mul_one (by decide)) Nat.one_pos (by
    rw [Nat.mul_one]
    exact Nat.mul_le_mul_right one h)

theorem representable_whole {n : Nat} (h : n ≤ 2 ^ 64) : Representable (roundUnits (n * one) 1) :=
  ⟨Nat.lt_of_le_of_lt (roundUnits_seconds_le h) (representable_two_pow_mul_one (by decide)).1,
    roundUnits_eq_shift _ _⟩

theorem secondUnits_le (d : Duration) : d.secondUnits ≤ 2 ^ 65 * one := by
  have hseconds := roundUnits_seconds_le (Nat.le_of_lt d.seconds_lt)
  have hrest := restUnits_lt d.subsecond_lt
  refine roundUnits_le (representable_two_pow_mul_one (by decide)) Nat.one_pos ?_
  omega

theorem hasUnits_toSeconds (d : Duration) : d.toSeconds.HasUnits d.secondUnits := by
  have hseconds : (ofNat d.seconds).HasUnits (roundUnits (d.seconds * one) 1) :=
    hasUnits_ofNat (representable_whole (Nat.le_of_lt d.seconds_lt)).1
  have hsubsecond : (ofNat d.subsecond).HasUnits (d.subsecond * one) :=
    hasUnits_ofNat_of_le (Nat.le_trans (Nat.le_of_lt d.subsecond_lt) (by decide))
  have hnanos : (ofNat 1_000_000_000).HasUnits (1_000_000_000 * one) := hasUnits_ofNat_of_le (by decide)
  have hrest := restUnits_lt d.subsecond_lt
  refine hseconds.add (hsubsecond.div hnanos (Nat.mul_pos (by decide) one_pos) ?_) ?_
  · exact Nat.lt_trans hrest one_lt_limit
  · exact Nat.lt_of_le_of_lt d.secondUnits_le (representable_two_pow_mul_one (by decide)).1

/-- Numbers beyond `2 ^ 53` are too far apart for what is less than one. -/
theorem roundUnits_add_rest {n rest : Nat} (hlow : 2 ^ 53 ≤ n) (hhigh : n ≤ 2 ^ 64) (hrest : rest < one) :
    roundUnits (roundUnits (n * one) 1 + rest) 1 = roundUnits (n * one) 1 := by
  have hlarge : 2 ^ 53 * one ≤ roundUnits (n * one) 1 :=
    le_roundUnits (representable_two_pow_mul_one (by decide)) Nat.one_pos (by
      rw [Nat.mul_one]
      exact Nat.mul_le_mul_right one hlow)
  refine roundUnits_add (representable_whole hhigh) ?_
  have hplace : 2 ^ 1 * one ≤ lastPlace (roundUnits (n * one) 1) := le_lastPlace hlarge
  omega

/-- Less than a whole number of seconds never becomes more than that number. -/
theorem secondUnits_le_whole {d : Duration} {n : Nat} (h : d.seconds < n) (hn : n ≤ 2 ^ 64) :
    d.secondUnits ≤ roundUnits (n * one) 1 := by
  have hrest := restUnits_lt d.subsecond_lt
  have hle : roundUnits (d.seconds * one) 1 + restUnits d.subsecond ≤ roundUnits (n * one) 1
      ∨ d.secondUnits = roundUnits (d.seconds * one) 1 := by
    rcases Nat.lt_or_ge d.seconds (2 ^ 53) with hsmall | hlarge
    · -- Up to there whole seconds are exact, and so is one more.
      have hexact : ∀ k, k ≤ 2 ^ 53 → roundUnits (k * one) 1 = k * one := by
        intro k hk
        refine roundUnits_one ?_
        simpa using representable_mul_one (s := 0) hk (by decide)
      have hnext : roundUnits ((d.seconds + 1) * one) 1 ≤ roundUnits (n * one) 1 :=
        roundUnits_mono Nat.one_pos Nat.one_pos (by gcongr; exact h)
      rw [hexact (d.seconds + 1) hsmall, Nat.add_mul, Nat.one_mul] at hnext
      rw [hexact _ (Nat.le_of_lt hsmall)]
      exact .inl (by omega)
    · exact .inr (roundUnits_add_rest hlarge (Nat.le_of_lt d.seconds_lt) hrest)
  rcases hle with hle | heq
  · exact roundUnits_le (representable_whole hn) Nat.one_pos (by omega)
  · rw [heq]
    exact roundUnits_mono Nat.one_pos Nat.one_pos (by gcongr)

theorem secondUnits_le_of_lt {d : Duration} {n : Nat} (h : d.seconds < n) (hn : n ≤ 2 ^ 64)
    (hrepresentable : Representable (n * one)) : d.secondUnits ≤ n * one := by
  have hle := secondUnits_le_whole h hn
  rwa [roundUnits_one hrepresentable] at hle

theorem secondUnits_le_limit (d : Duration) : d.secondUnits ≤ 2 ^ 64 * one :=
  secondUnits_le_of_lt d.seconds_lt (Nat.le_refl _) (representable_two_pow_mul_one (by decide))

theorem whole_le_secondUnits {d : Duration} {n : Nat} (h : n ≤ d.seconds) :
    roundUnits (n * one) 1 ≤ d.secondUnits := by
  have hn : n ≤ 2 ^ 64 := Nat.le_trans h (Nat.le_of_lt d.seconds_lt)
  have hmono : roundUnits (n * one) 1 ≤ roundUnits (d.seconds * one) 1 :=
    roundUnits_mono Nat.one_pos Nat.one_pos (by gcongr)
  exact le_roundUnits (representable_whole hn) Nat.one_pos (by omega)

/-- **A longer duration never has fewer seconds.** -/
theorem secondUnits_mono {a b : Duration} (h : a ≤ b) : a.secondUnits ≤ b.secondUnits := by
  have hnanos : a.nanos ≤ b.nanos := h
  have ha := a.nanos_eq
  have hb := b.nanos_eq
  have hrest := b.subsecond_lt
  rcases Nat.lt_or_ge a.seconds b.seconds with hless | hge
  · exact Nat.le_trans (secondUnits_le_whole hless (Nat.le_of_lt b.seconds_lt))
      (whole_le_secondUnits (Nat.le_refl _))
  · have hseconds : a.seconds = b.seconds := by omega
    unfold secondUnits
    rw [hseconds]
    refine roundUnits_mono Nat.one_pos Nat.one_pos ?_
    gcongr
    exact restUnits_mono (by omega)

theorem within_toSeconds (d : Duration) : d.toSeconds.Within (2 ^ 64 * one) :=
  d.hasUnits_toSeconds.within d.secondUnits_le_limit

theorem within_toMillis (d : Duration) : d.toMillis.Within (2 ^ 74 * one) := by
  have hthousand : (Binary64.ofNat 1000).Within (2 ^ 10 * one) :=
    (hasUnits_ofNat_of_le (by decide)).within (Nat.mul_le_mul_right one (by decide))
  exact Within.mul (by decide) d.within_toSeconds hthousand

/-- A longer duration never has fewer milliseconds either. -/
theorem toMillis_mono {a b : Duration} (h : a ≤ b) : a.toMillis ≤ b.toMillis := by
  have hthousand : (1000 : Binary64).HasUnits (1000 * one) := hasUnits_ofNat_of_le (by decide)
  have hunits : ∀ d : Duration, d.toMillis.HasUnits (roundUnits (d.secondUnits * (1000 * one)) one) := by
    intro d
    refine d.hasUnits_toSeconds.mul hthousand (Nat.lt_of_le_of_lt (roundUnits_le
      (representable_two_pow_mul_one (k := 74) (by decide)) one_pos ?_)
      (representable_two_pow_mul_one (by decide)).1)
    calc d.secondUnits * (1000 * one)
        _ ≤ 2 ^ 64 * one * (2 ^ 10 * one) :=
          Nat.mul_le_mul d.secondUnits_le_limit (Nat.mul_le_mul_right one (by decide))
        _ = 2 ^ 74 * one * one := by ring
  exact ((hunits a).le_iff (hunits b)).mpr
    (roundUnits_mono one_pos one_pos (by gcongr; exact secondUnits_mono h))

/-- A nanosecond is more than a two to the thirtieth of a second. -/
theorem one_le_of_nanos_pos {d : Duration} (h : 0 < d.nanos) : one ≤ 2 ^ 30 * d.secondUnits := by
  have hleast : one ≤ 2 ^ 30 * secondUnits ⟨1, by decide⟩ := by decide +kernel
  exact Nat.le_trans hleast (Nat.mul_le_mul_left _ (secondUnits_mono h))

theorem secondUnits_pos {d : Duration} (h : 0 < d.nanos) : 0 < d.secondUnits :=
  Nat.pos_of_mul_pos_left (Nat.lt_of_lt_of_le Binary64.one_pos (one_le_of_nanos_pos h))

@[simp] theorem secondUnits_zero : secondUnits zero = 0 := by
  simp [secondUnits, restUnits, seconds, subsecond, zero]

/-- No duration but none is shorter than a nanosecond. -/
theorem one_le_secondUnits {d : Duration} (h : 0 < d.secondUnits) : one ≤ 2 ^ 30 * d.secondUnits := by
  refine one_le_of_nanos_pos (Nat.pos_of_ne_zero fun hzero => ?_)
  obtain rfl : d = zero := Duration.ext hzero
  rw [secondUnits_zero] at h
  exact Nat.lt_irrefl 0 h

end LoadTest.Duration
