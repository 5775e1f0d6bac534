import LoadTest.Metric.Percentile
import LoadTest.Proofs.Duration.Seconds

/-!
# LoadTest.Proofs.Metric.Percentile

Percentiles of ascending samples. Between two samples the point is computed in doubles, which could carry
it past the longest duration. **It does not where the samples have a sum** (`isSome_percentile?`): the two
then stay so far below the longest duration together that half a last place is no harm. What the percentile
is depends on its rank alone (`AtRank`). At the ends of the scale it is the first or the last sample itself.
-/

namespace LoadTest

open Binary64

-- The number of units in one has a thousand binary digits, and no step here is to write them out.
attribute [local irreducible] Binary64.one

/-! ### Numbers that are not negative -/

namespace Binary64

variable {x y : Binary64} {a b : Nat}

/-- The number is of so many units and not below zero; a zero may have either sign. -/
def Measures (x : Binary64) (units : Nat) : Prop := x.HasUnits units ∨ units = 0 ∧ ∃ negative, x = zero negative

theorem Measures.hasUnits (h : x.Measures a) (hpos : a ≠ 0) : x.HasUnits a :=
  h.resolve_right fun hzero => hpos hzero.1

theorem Measures.div (hx : x.Measures a) (hy : y.HasUnits b) (hpos : 0 < b)
    (h : roundUnits (a * one) b < limit) : (x / y).Measures (roundUnits (a * one) b) := by
  rcases hx with hx | ⟨rfl, negative, rfl⟩
  · exact .inl (hx.div hy hpos h)
  · rw [Nat.zero_mul, roundUnits_zero, hy.zero_div hpos]
    exact .inr ⟨rfl, negative, rfl⟩

theorem Measures.mul (hx : x.Measures a) (hy : y.HasUnits b) (h : roundUnits (a * b) one < limit) :
    (x * y).Measures (roundUnits (a * b) one) := by
  rcases hx with hx | ⟨rfl, negative, rfl⟩
  · exact .inl (hx.mul hy h)
  · rw [Nat.zero_mul, roundUnits_zero, hy.zero_mul]
    exact .inr ⟨rfl, negative, rfl⟩

end Binary64

/-! ### Points between samples -/

namespace Duration

theorem isSome_ofNanos? {n : Nat} (h : n < limit) : (ofNanos? n).isSome = true := by
  rw [ofNanos?, dif_pos h]
  rfl

theorem ofSeconds?_eq {x : Binary64} {units : Nat} (h : x.HasUnits units) :
    ofSeconds? x = ofNanos? (roundDiv (units * 1_000_000_000) one) := by
  obtain ⟨-, rfl⟩ := h
  rw [ofSeconds?, if_neg (by simp)]

/-- Numbers of seconds below the limit have a nearest duration. -/
theorem isSome_ofSeconds? {x : Binary64} {units : Nat} (h : x.HasUnits units) (hlt : units < 2 ^ 64 * one) :
    (ofSeconds? x).isSome = true := by
  have hroom : units + 2 ^ 11 * one ≤ 2 ^ 64 * one := add_two_pow_mul_one_le h.representable hlt
  rw [ofSeconds?_eq h]
  refine isSome_ofNanos? (Nat.lt_of_le_of_lt (roundDiv_le ..) ?_)
  have hdiv : units * 1_000_000_000 / one ≤ (2 ^ 64 - 2 ^ 11) * 1_000_000_000 := by
    refine Nat.div_le_of_le_mul ?_
    calc units * 1_000_000_000
        _ ≤ ((2 ^ 64 - 2 ^ 11) * one) * 1_000_000_000 := Nat.mul_le_mul_right _ (by omega)
        _ = one * ((2 ^ 64 - 2 ^ 11) * 1_000_000_000) := by ring
  have hlimit : limit = 2 ^ 64 * 1_000_000_000 := by norm_num [limit, UInt64.size]
  omega

end Duration

namespace Metric

/-- What is rounded stays below the longest duration if it does by more than half a last place. -/
theorem roundUnits_lt_of_add {n : Nat} (h : n + 2 ^ 10 * one < 2 ^ 64 * one) :
    roundUnits n 1 < 2 ^ 64 * one := by
  have hround : roundUnits n 1 * 1 ≤ n + 1 * (2 ^ 10 * one) :=
    roundUnits_mul_le (by rw [Nat.div_one]; omega)
  omega

section Between

variable {lower upper part : Nat}

/-- A part of the way is less than the whole of it, by a last place of one. -/
theorem mul_part_add_le (hpart : part + 2 ^ 1021 ≤ one) (way : Nat) :
    way * part + way * 2 ^ 1021 ≤ way * one := by
  rw [← Nat.mul_add]
  exact Nat.mul_le_mul_left way hpart

theorem roundUnits_part_le {way : Nat} (hway : Representable way) (hpart : part + 2 ^ 1021 ≤ one) :
    roundUnits (way * part) one ≤ way :=
  roundUnits_le hway one_pos (Nat.le_trans (Nat.le_add_right ..) (mul_part_add_le hpart way))

theorem one_eq_two_pow_mul : one = 2 ^ 53 * 2 ^ 1021 := by rw [one_eq, ← Nat.pow_add]

/-- From a small number a part of the way, however long, does not lead past the limit. -/
theorem add_part_lt_of_low (hlow : lower < 2 ^ 10 * one) {way : Nat} (hway : way ≤ 2 ^ 64 * one)
    (hpart : part + 2 ^ 1021 ≤ one) :
    roundUnits (lower + roundUnits (way * part) one) 1 < 2 ^ 64 * one := by
  have hrounded : roundUnits (way * part) one ≤ (2 ^ 53 - 1) * 2 ^ 11 * one := by
    refine roundUnits_le (representable_mul_one (by decide) (by decide)) one_pos ?_
    have hone := one_eq_two_pow_mul
    generalize 2 ^ 1021 = place at *
    calc way * part
        _ ≤ 2 ^ 64 * one * ((2 ^ 53 - 1) * place) := Nat.mul_le_mul hway (by omega)
        _ = (2 ^ 53 - 1) * 2 ^ 11 * one * (2 ^ 53 * place) := by ring
        _ = (2 ^ 53 - 1) * 2 ^ 11 * one * one := by rw [← hone]
  exact roundUnits_lt_of_add (by omega)

/-- Towards a number that is a last place below the limit, a part of the way does not lead past it. -/
theorem add_part_lt_of_high (hle : lower ≤ upper) (hhigh : upper + 2 ^ 11 * one ≤ 2 ^ 64 * one)
    (hpart : part + 2 ^ 1021 ≤ one) :
    roundUnits (lower + roundUnits (roundUnits (upper - lower) 1 * part) one) 1 < 2 ^ 64 * one := by
  refine roundUnits_lt_of_add ?_
  generalize hway : roundUnits (upper - lower) 1 = way
  have hlong : way * 1 ≤ upper - lower + 1 * (2 ^ 10 * one) := by
    rw [← hway]
    exact roundUnits_mul_le (by rw [Nat.div_one]; omega)
  have hrepresentable : Representable way := by
    have htop : (2 : Nat) ^ 64 * one < Binary64.limit := (representable_two_pow_mul_one (by decide)).1
    exact ⟨by omega, hway ▸ roundUnits_eq_shift _ _⟩
  have hshort := mul_part_add_le hpart way
  have hrounded := roundUnits_part_le hrepresentable hpart
  rcases Nat.lt_or_ge (upper - lower) (2 ^ 63 * one) with hnear | hfar
  · -- Half a last place of the way is a quarter of what is left beyond `upper`.
    have hnear : way * 1 ≤ upper - lower + 1 * (2 ^ 9 * one) := by
      rw [← hway]
      exact roundUnits_mul_le (by rw [Nat.div_one]; omega)
    omega
  · rcases Nat.lt_or_ge (upper - lower) way with hgrown | hexact
    · -- A way that was rounded up is so long that its part is rounded to less than the whole.
      have hpartial : roundUnits (way * part) one * one ≤ way * part + one * (2 ^ 10 * one) := by
        refine roundUnits_mul_le (Nat.div_lt_of_lt_mul ?_)
        calc way * part
            _ ≤ way * one := Nat.le_trans (Nat.le_add_right ..) hshort
            _ = one * way := Nat.mul_comm ..
            _ < one * (2 ^ 64 * one) := Nat.mul_lt_mul_of_pos_left (by omega) one_pos
      have hplace : one * (2 ^ 10 * one) < way * 2 ^ 1021 := by
        have hone := one_eq_two_pow_mul
        have hpos := one_pos
        generalize 2 ^ 1021 = place at *
        calc one * (2 ^ 10 * one)
            _ = one * (2 ^ 10 * (2 ^ 53 * place)) := by rw [← hone]
            _ = 2 ^ 63 * one * place := by ring
            _ < way * place := Nat.mul_lt_mul_of_pos_right (by omega) (by omega)
      have hless : roundUnits (way * part) one < way :=
        Nat.lt_of_mul_lt_mul_right (a := one) (by omega)
      omega
    · omega

end Between

/-- The seconds of the longest duration below `2 ^ 10` seconds, and of the longest whose sum with that many
is a duration. -/
theorem secondUnits_room :
    (⟨1_023_999_999_999, by decide⟩ : Duration).secondUnits < 2 ^ 10 * one
      ∧ (⟨Duration.limit - 1_024_000_000_001, by decide⟩ : Duration).secondUnits + 2 ^ 11 * one
        ≤ 2 ^ 64 * one := by
  decide +kernel

/-- The units of the point between two samples at the given part of the way. -/
def pointUnits (lower upper : Duration) (part : Nat) : Nat :=
  roundUnits (lower.secondUnits + roundUnits (roundUnits (upper.secondUnits - lower.secondUnits) 1 * part) one) 1

theorem hasUnits_between {lower upper : Duration} {part : Binary64} {units : Nat} (hle : lower ≤ upper)
    (hpart : part.HasUnits units) (hless : units + 2 ^ 1021 ≤ one) :
    (between lower.toSeconds upper.toSeconds part).HasUnits (pointUnits lower upper units) := by
  have hlower := lower.hasUnits_toSeconds
  have hupper := upper.hasUnits_toSeconds
  have hway := hupper.sub hlower (Duration.secondUnits_mono hle)
  have hstep := roundUnits_part_le hway.representable hless
  have hlong : roundUnits (upper.secondUnits - lower.secondUnits) 1 ≤ upper.secondUnits :=
    roundUnits_le hupper.representable Nat.one_pos (by omega)
  have hleast := lower.secondUnits_le_limit
  have hmost := upper.secondUnits_le_limit
  have hpoint : pointUnits lower upper units ≤ 2 ^ 65 * one :=
    roundUnits_le (representable_two_pow_mul_one (by decide)) Nat.one_pos (by omega)
  exact hlower.add (hway.mul hpart (Nat.lt_of_le_of_lt hstep hway.representable.1))
    (Nat.lt_of_le_of_lt hpoint (representable_two_pow_mul_one (by decide)).1)

/-- Two samples whose sum is a duration have a point between them. -/
theorem isSome_point {lower upper : Duration} {part : Binary64} {units : Nat} (hle : lower ≤ upper)
    (hsum : lower.nanos + upper.nanos < Duration.limit) (hpart : part.HasUnits units)
    (hless : units + 2 ^ 1021 ≤ one) :
    (Duration.ofSeconds? (between lower.toSeconds upper.toSeconds part)).isSome = true := by
  have hlong : upper.secondUnits ≤ 2 ^ 64 * one := upper.secondUnits_le_limit
  refine Duration.isSome_ofSeconds? (hasUnits_between hle hpart hless) ?_
  rcases Nat.lt_or_ge lower.seconds 1024 with hlow | hhigh
  · refine add_part_lt_of_low ?_ (Nat.le_trans (roundUnits_le ?_ Nat.one_pos ?_) hlong) hless
    · refine Nat.lt_of_le_of_lt (Duration.secondUnits_mono ?_) secondUnits_room.1
      have hnanos := lower.nanos_eq
      have hrest := lower.subsecond_lt
      rw [Duration.le_def]
      show lower.nanos ≤ 1_023_999_999_999
      omega
    · exact upper.hasUnits_toSeconds.representable
    · omega
  · -- The upper sample leaves room for the lower one.
    refine add_part_lt_of_high (Duration.secondUnits_mono hle) ?_ hless
    refine Nat.le_trans (Nat.add_le_add_right (Duration.secondUnits_mono ?_) _) secondUnits_room.2
    have hnanos := lower.nanos_eq
    rw [Duration.le_def]
    show upper.nanos ≤ Duration.limit - 1_024_000_000_001
    omega

/-! ### Ranks -/

/-- The rank of a percentage is at most the last one. -/
def RankFits (p : Binary64) (count : Nat) : Prop :=
  ∃ units, (rank p count).HasUnits units ∧ units ≤ (count - 1) * one

theorem hasUnits_rank {p : Binary64} {share count : Nat} (hshare : (clampPercent p / 100).HasUnits share)
    (hone : share ≤ one) (hcount : count - 1 ≤ 2 ^ 64) :
    (rank p count).HasUnits (roundUnits (share * roundUnits ((count - 1) * one) 1) one) := by
  have hlast := Duration.representable_whole hcount
  have hlastUnits : (ofNat (count - 1)).HasUnits (roundUnits ((count - 1) * one) 1) := hasUnits_ofNat hlast.1
  refine hshare.mul hlastUnits (Nat.lt_of_le_of_lt (roundUnits_le hlast one_pos ?_) hlast.1)
  rw [Nat.mul_comm]
  exact Nat.mul_le_mul_left _ hone

/-- So few ranks are doubles themselves. -/
theorem rankFits_of_le {p : Binary64} {share count : Nat} (hshare : (clampPercent p / 100).HasUnits share)
    (hone : share ≤ one) (hcount : count - 1 ≤ 2 ^ 53) : RankFits p count := by
  have hlast : (ofNat (count - 1)).HasUnits ((count - 1) * one) := hasUnits_ofNat_of_le hcount
  have hexact := roundUnits_one hlast.representable
  refine ⟨_, hasUnits_rank hshare hone (by omega), ?_⟩
  rw [hexact]
  refine roundUnits_le hlast.representable one_pos ?_
  rw [Nat.mul_comm]
  exact Nat.mul_le_mul_left _ hone

/-- A percentage that is not too near to a hundred does not pass the last rank: where that is no double
any more, what is missing to a hundred is more than rounding can add. -/
theorem rankFits_of_share {p : Binary64} {share count : Nat} (hshare : (clampPercent p / 100).HasUnits share)
    (hless : 256 * share ≤ 254 * one) (hcount : count ≤ 2 ^ 64) : RankFits p count := by
  have hone := one_pos
  rcases Nat.lt_or_ge (2 ^ 53) (count - 1) with hlarge | hsmall
  · refine ⟨_, hasUnits_rank hshare (by omega) (by omega), ?_⟩
    have hlast : count - 1 < 2 ^ 64 := by omega
    generalize count - 1 = last at *
    have hrounded : roundUnits (last * one) 1 * 1 ≤ last * one + 1 * (2 ^ 10 * one) := by
      refine roundUnits_mul_le ?_
      rw [Nat.div_one]
      exact Nat.mul_lt_mul_of_pos_right (by omega) hone
    have htop : roundUnits (last * one) 1 ≤ 2 ^ 64 * one := Duration.roundUnits_seconds_le (by omega)
    generalize roundUnits (last * one) 1 = rounded at *
    have hrank : roundUnits (share * rounded) one * one ≤ share * rounded + one * (2 ^ 10 * one) := by
      refine roundUnits_mul_le (Nat.div_lt_of_lt_mul ?_)
      calc share * rounded
          _ ≤ share * (2 ^ 64 * one) := Nat.mul_le_mul_left share htop
          _ < one * (2 ^ 64 * one) := Nat.mul_lt_mul_of_pos_right (by omega) (by omega)
    have hproduct : 256 * share * rounded ≤ 254 * one * (last * one + 2 ^ 10 * one) :=
      Nat.mul_le_mul hless (by omega)
    have hroom : 510 * 2 ^ 10 * (one * one) ≤ 2 * last * (one * one) :=
      Nat.mul_le_mul_right _ (by omega)
    refine Nat.le_of_mul_le_mul_right ?_ hone
    linarith only [hrank, hproduct, hroom]
  · exact rankFits_of_le hshare (by omega) hsmall

/-! ### Percentiles -/

theorem le_of_ascending {samples : List Duration} {i j : Nat} {lower upper : Duration}
    (ascending : samples.Pairwise (· ≤ ·)) (hlt : i < j) (hlower : samples[i]? = some lower)
    (hupper : samples[j]? = some upper) : lower ≤ upper := by
  obtain ⟨hi, rfl⟩ := List.getElem?_eq_some_iff.mp hlower
  obtain ⟨hj, rfl⟩ := List.getElem?_eq_some_iff.mp hupper
  exact List.pairwise_iff_getElem.mp ascending i j hi hj hlt

/-- Two samples at different places add up to no more than all of them. -/
theorem add_nanos_le {samples : List Duration} {i j : Nat} {lower upper : Duration} (hlt : i < j)
    (hlower : samples[i]? = some lower) (hupper : samples[j]? = some upper) :
    lower.nanos + upper.nanos ≤ Duration.totalNanos samples := by
  have hmember : ∀ {samples : List Duration} {d : Duration}, d ∈ samples →
      d.nanos ≤ Duration.totalNanos samples := by
    intro samples d mem
    induction samples with
    | nil => simp at mem
    | cons head rest ih =>
        rw [Duration.totalNanos]
        rcases List.mem_cons.mp mem with rfl | mem
        · omega
        · have := ih mem
          omega
  induction samples generalizing i j with
  | nil => simp at hlower
  | cons head rest ih =>
      obtain ⟨j, rfl⟩ : ∃ k, j = k + 1 := ⟨j - 1, by omega⟩
      rw [List.getElem?_cons_succ] at hupper
      rw [Duration.totalNanos]
      cases i with
      | zero =>
          obtain rfl : head = lower := by simpa using hlower
          have := hmember (List.mem_of_getElem? hupper)
          omega
      | succ i =>
          rw [List.getElem?_cons_succ] at hlower
          have := ih (Nat.lt_of_succ_lt_succ hlt) hlower hupper
          omega

section Positions

variable {r : Binary64} {units last : Nat}

theorem below_eq (h : r.Measures units) (hle : units ≤ last * one) (hlast : last < rankBound) :
    r.toNatBelow rankBound = units / one := by
  rcases h with h | ⟨rfl, negative, rfl⟩
  · have hfloor : units / one ≤ last := Nat.div_le_of_le_mul (by rwa [Nat.mul_comm])
    rw [h.toNatBelow]
    exact Nat.min_eq_left (by omega)
  · simp [zero, toNatBelow]

theorem above_eq_of_whole (h : r.Measures units) (hle : units ≤ last * one) (hlast : last < rankBound)
    (hwhole : units % one = 0) : r.ceilBelow rankBound = units / one := by
  have hone := Binary64.one_pos
  rcases h with h | ⟨rfl, negative, rfl⟩
  · have hsplit := Nat.div_add_mod units one
    rw [Nat.mul_comm] at hsplit
    have hceil : (units + (one - 1)) / one = units / one :=
      Nat.div_eq_of_lt_le (by omega) (by rw [Nat.succ_mul]; omega)
    have hfloor : units / one ≤ last := Nat.div_le_of_le_mul (by rwa [Nat.mul_comm])
    rw [h.ceilBelow, hceil]
    exact Nat.min_eq_left (by omega)
  · have hless : one - 1 < one := Nat.sub_lt hone Nat.one_pos
    simp [zero, ceilBelow, Nat.div_eq_of_lt hless]

/-- A rank that is not whole lies before the last one. -/
theorem div_lt_of_part (hle : units ≤ last * one) (hpart : units % one ≠ 0) : units / one < last := by
  refine (Nat.div_lt_iff_lt_mul Binary64.one_pos).mpr (Nat.lt_of_le_of_ne hle ?_)
  rintro rfl
  exact hpart (Nat.mul_mod_left ..)

theorem above_eq_of_part (h : r.HasUnits units) (hle : units ≤ last * one) (hlast : last < rankBound)
    (hpart : units % one ≠ 0) : r.ceilBelow rankBound = units / one + 1 := by
  have hmod := Nat.mod_lt units Binary64.one_pos
  have hsplit := Nat.div_add_mod units one
  rw [Nat.mul_comm] at hsplit
  have hceil : (units + (one - 1)) / one = units / one + 1 :=
    Nat.div_eq_of_lt_le (by rw [Nat.succ_mul]; omega) (by rw [Nat.succ_mul, Nat.succ_mul]; omega)
  have hfloor := div_lt_of_part hle hpart
  rw [h.ceilBelow, hceil]
  exact Nat.min_eq_left (by omega)

/-- The part of the way from one rank to the next. -/
theorem hasUnits_part {r : Binary64} {units : Nat} (h : r.HasUnits units) (hpart : units % one ≠ 0) :
    (r - ofNat (units / one)).HasUnits (units % one) := by
  -- The rank is not whole, so it is small enough for its whole part to be a double.
  have hsmall : units / one < 2 ^ 52 := by
    refine (Nat.div_lt_iff_lt_mul Binary64.one_pos).mpr (Nat.lt_of_not_le fun hlarge => hpart ?_)
    exact Nat.mod_eq_zero_of_dvd (one_dvd h.representable hlarge)
  have hwhole : (ofNat (units / one)).HasUnits (units / one * one) := hasUnits_ofNat_of_le (by omega)
  have hsplit := Nat.div_add_mod units one
  rw [Nat.mul_comm] at hsplit
  have hdifference := h.sub hwhole (by omega)
  rwa [show units - units / one * one = units % one by omega,
    roundUnits_one (representable_mod_one h.representable)] at hdifference

end Positions

variable {sorted : List Duration} {p : Binary64}

/-- Where the rank is whole, the percentile is the sample there. -/
theorem percentile?_of_whole {i : Nat} (hsome : sorted ≠ [])
    (hbelow : (rank p sorted.length).toNatBelow rankBound = i)
    (habove : (rank p sorted.length).ceilBelow rankBound = i) : percentile? sorted p = sorted[i]? := by
  unfold percentile?
  rw [if_neg (by simpa using hsome)]
  dsimp only
  rw [hbelow, habove, if_pos rfl]

theorem percentile?_of_part {i : Nat} {lower upper point : Duration} (hsome : sorted ≠ [])
    (hbelow : (rank p sorted.length).toNatBelow rankBound = i)
    (habove : (rank p sorted.length).ceilBelow rankBound = i + 1)
    (hlower : sorted[i]? = some lower) (hupper : sorted[i + 1]? = some upper)
    (hpoint : Duration.ofSeconds?
      (between lower.toSeconds upper.toSeconds (rank p sorted.length - ofNat i)) = some point) :
    percentile? sorted p = some (point.clamp lower upper) := by
  unfold percentile?
  rw [if_neg (by simpa using hsome)]
  dsimp only
  rw [hbelow, habove, if_neg (by omega)]
  exact Option.bind_eq_some_iff.mpr ⟨lower, hlower, Option.bind_eq_some_iff.mpr ⟨upper, hupper,
    Option.bind_eq_some_iff.mpr ⟨point, hpoint, rfl⟩⟩⟩

/-- What stands at a rank: the sample there, or a duration between the samples next to it. -/
inductive AtRank (sorted : List Duration) (units : Nat) : Duration → Prop
  | sample {d : Duration} (whole : units % one = 0) (here : sorted[units / one]? = some d) :
      AtRank sorted units d
  | between {lower upper point : Duration} (part : units % one ≠ 0) (before : sorted[units / one]? = some lower)
      (behind : sorted[units / one + 1]? = some upper)
      (nearest : Duration.ofNanos? (roundDiv (pointUnits lower upper (units % one) * 1_000_000_000) one)
        = some point) :
      AtRank sorted units (point.clamp lower upper)

/-- **The percentile is what stands at its rank,** as long as neighbouring samples have sums. -/
theorem exists_atRank {units : Nat} (ascending : sorted.Pairwise (· ≤ ·)) (hsome : sorted ≠ [])
    (room : ∀ {i lower upper}, sorted[i]? = some lower → sorted[i + 1]? = some upper →
      lower.nanos + upper.nanos < Duration.limit)
    (hcount : sorted.length ≤ 2 ^ 64) (hunits : (rank p sorted.length).Measures units)
    (hle : units ≤ (sorted.length - 1) * one) : ∃ d, percentile? sorted p = some d ∧ AtRank sorted units d := by
  have hlength : 0 < sorted.length := List.length_pos_iff.mpr hsome
  have hlast : sorted.length - 1 < rankBound := by
    simp only [rankBound, UInt64.size]
    omega
  have hbelow := below_eq hunits hle hlast
  by_cases hwhole : units % one = 0
  · have hfloor : units / one ≤ sorted.length - 1 := Nat.div_le_of_le_mul (by rwa [Nat.mul_comm])
    have here := List.getElem?_eq_getElem (show units / one < sorted.length by omega)
    refine ⟨_, ?_, .sample hwhole here⟩
    rw [percentile?_of_whole hsome hbelow (above_eq_of_whole hunits hle hlast hwhole), here]
  · have hfloor := div_lt_of_part hle hwhole
    have before := List.getElem?_eq_getElem (show units / one < sorted.length by omega)
    have behind := List.getElem?_eq_getElem (show units / one + 1 < sorted.length by omega)
    have hunits := hunits.hasUnits fun hzero => hwhole (by rw [hzero, Nat.zero_mod])
    have hpart := hasUnits_part hunits hwhole
    have hless := add_two_pow_le_one hpart.representable (Nat.mod_lt _ Binary64.one_pos) rfl
    have hordered := le_of_ascending ascending (Nat.lt_add_one _) before behind
    obtain ⟨point, hpoint⟩ :=
      Option.isSome_iff_exists.mp (isSome_point hordered (room before behind) hpart hless)
    refine ⟨_, percentile?_of_part hsome hbelow (above_eq_of_part hunits hle hlast hwhole) before behind hpoint,
      .between hwhole before behind ?_⟩
    rwa [Duration.ofSeconds?_eq (hasUnits_between hordered hpart hless)] at hpoint

/-- **Samples that have a sum have every percentile whose rank fits.** -/
theorem isSome_percentile? (ascending : sorted.Pairwise (· ≤ ·))
    (hsum : Duration.totalNanos sorted < Duration.limit) (hcount : sorted.length ≤ 2 ^ 64)
    (hrank : RankFits p sorted.length) : (percentile? sorted p).isSome = true := by
  obtain ⟨units, hunits, hle⟩ := hrank
  by_cases hsome : sorted = []
  · rw [hsome]
    rfl
  · obtain ⟨d, hd, -⟩ := exists_atRank ascending hsome
      (fun before behind => Nat.lt_of_le_of_lt (add_nanos_le (Nat.lt_add_one _) before behind) hsum)
      hcount (.inl hunits) hle
    rw [hd]
    rfl

/-! ### Named percentiles -/

theorem hasUnits_hundred : (100 : Binary64).HasUnits (100 * one) := hasUnits_ofNat_of_le (by decide)

/-- A percentage on the scale counts as it is. -/
theorem clampPercent_eq_self (hleast : 0 ≤ p) (hmost : p ≤ 100) : clampPercent p = p := by
  rw [clampPercent, (isNaN_of_le hleast).2, if_neg Bool.false_ne_true, if_neg fun h => not_le_of_lt h hleast,
    if_neg fun h => not_le_of_lt h hmost]

/-- The percentages in whole numbers below a hundred. -/
theorem rankFits_ofNat {n count : Nat} (hn : n < 100) (hcount : count ≤ 2 ^ 64) : RankFits (ofNat n) count := by
  have hunits := hasUnits_ofNat_of_le (n := n) (by omega)
  have hclamp : clampPercent (ofNat n) = ofNat n :=
    clampPercent_eq_self ((hasUnits_zero.le_iff hunits).mpr (Nat.zero_le _))
      ((hunits.le_iff hasUnits_hundred).mpr (Nat.mul_le_mul_right one (Nat.le_of_lt hn)))
  have hmost : 256 * roundUnits (99 * one * one) (100 * one) ≤ 254 * one := by decide +kernel
  have hhundred : 0 < 100 * one := Nat.mul_pos (by decide) Binary64.one_pos
  have hless : roundUnits (n * one * one) (100 * one) ≤ roundUnits (99 * one * one) (100 * one) :=
    roundUnits_mono hhundred hhundred (by gcongr; omega)
  have hone := one_lt_limit
  have hshare := hunits.div hasUnits_hundred hhundred (by omega)
  refine rankFits_of_share ?_ (Nat.le_trans (Nat.mul_le_mul_left 256 hless) hmost) hcount
  rw [hclamp]
  exact hshare

theorem zero_eq : (0 : Binary64) = zero false := by
  obtain ⟨_, heq⟩ := hasUnits_zero
  exact heq

/-- A percentage that is not positive counts as zero. -/
theorem clampPercent_of_le_zero (hp : p ≤ 0) : ∃ sign, clampPercent p = zero sign := by
  have number := (isNaN_of_le hp).1
  by_cases hnegative : p < 0
  · refine ⟨false, ?_⟩
    rw [clampPercent, number, if_neg Bool.false_ne_true, if_pos hnegative, zero_eq]
  · have hge : 0 ≤ p := Binary64.le_of_not_lt number hasUnits_zero.isNaN hnegative
    have hmost : p ≤ 100 := Binary64.le_trans hp ((hasUnits_zero.le_iff hasUnits_hundred).mpr (Nat.zero_le _))
    obtain ⟨sign, _, heq, -⟩ := hasUnits_zero.exists_sign ((Bool.and_eq_true ..).mpr ⟨hp, hge⟩)
    exact ⟨sign, (clampPercent_eq_self hge hmost).trans heq⟩

/-- A percentage of a hundred or more counts as a hundred. -/
theorem clampPercent_of_hundred_le (hp : 100 ≤ p) : clampPercent p = 100 := by
  have number := (isNaN_of_le hp).2
  have hpositive : ¬ p < 0 := fun hless => Nat.not_lt_zero _
    ((hasUnits_hundred.lt_iff hasUnits_zero).mp (lt_of_le_of_lt hp hless))
  rw [clampPercent, number, if_neg Bool.false_ne_true, if_neg hpositive]
  split
  · rfl
  · next hmost =>
    have hle : p ≤ 100 := Binary64.le_of_not_lt hasUnits_hundred.isNaN number hmost
    exact (eq_ofNat_iff (by decide) (by decide)).mp ((Bool.and_eq_true ..).mpr ⟨hle, hp⟩)

/-- At the lower end of the scale is the first sample. -/
theorem percentile?_of_le_zero (hp : p ≤ 0) (hsome : sorted ≠ []) (hcount : sorted.length ≤ 2 ^ 64) :
    percentile? sorted p = sorted.head? := by
  obtain ⟨sign, hclamp⟩ := clampPercent_of_le_zero hp
  have hlast : (ofNat (sorted.length - 1)).HasUnits _ :=
    hasUnits_ofNat (Duration.representable_whole (n := sorted.length - 1) (by omega)).1
  have hrank : rank p sorted.length = zero sign := by
    rw [rank, hclamp, hasUnits_hundred.zero_div (Nat.mul_pos (by decide) Binary64.one_pos), hlast.zero_mul]
  have hunits : (rank p sorted.length).Measures 0 := .inr ⟨rfl, sign, hrank⟩
  have hle : 0 ≤ 0 * one := Nat.zero_le _
  have hbelow := below_eq hunits hle (by decide)
  have habove := above_eq_of_whole hunits hle (by decide) (Nat.zero_mod _)
  rw [Nat.zero_div] at hbelow habove
  rw [percentile?_of_whole hsome hbelow habove, List.head?_eq_getElem?]

/-- At the upper end of the scale is the last sample, as long as its rank is a double. -/
theorem percentile?_of_hundred_le (hp : 100 ≤ p) (hsome : sorted ≠ []) (hcount : sorted.length - 1 ≤ 2 ^ 53) :
    percentile? sorted p = sorted.getLast? := by
  have hshare : (clampPercent p / 100).HasUnits one := by
    rw [clampPercent_of_hundred_le hp]
    have hhundred : 0 < 100 * one := Nat.mul_pos (by decide) Binary64.one_pos
    have hwhole : roundUnits (100 * one * one) (100 * one) = one := by
      rw [Nat.mul_comm]
      exact roundUnits_mul representable_one hhundred
    have hdiv := hasUnits_hundred.div hasUnits_hundred hhundred
    rw [hwhole] at hdiv
    exact hdiv one_lt_limit
  have hlast : (ofNat (sorted.length - 1)).HasUnits ((sorted.length - 1) * one) := hasUnits_ofNat_of_le hcount
  have hunits : (rank p sorted.length).HasUnits ((sorted.length - 1) * one) := by
    have hround := roundUnits_mul hlast.representable Binary64.one_pos
    have hrank := hasUnits_rank hshare (Nat.le_refl _) (Nat.le_trans hcount (by decide))
    rwa [roundUnits_one hlast.representable, Nat.mul_comm one, hround] at hrank
  have hbound : sorted.length - 1 < rankBound := by
    simp only [rankBound, UInt64.size]
    omega
  have hbelow := below_eq (.inl hunits) (Nat.le_refl _) hbound
  have habove := above_eq_of_whole (.inl hunits) (Nat.le_refl _) hbound (Nat.mul_mod_left ..)
  rw [Nat.mul_div_cancel _ Binary64.one_pos] at hbelow habove
  rw [percentile?_of_whole hsome hbelow habove, List.getLast?_eq_getElem?]

end Metric

end LoadTest
