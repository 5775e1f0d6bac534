import LoadTest.Proofs.Metric.Totals

/-!
# LoadTest.Proofs.Metric.Bracket

Percentiles stay in order. **Each percentile of ascending samples lies between the samples below and above its
rank, and a higher percentage never has a lower percentile** (`ordered_of_ascending`). The second follows from
the first where a sample lies between two ranks, the first rank being before it and the second behind it. Two
ranks between the same two samples differ by the part of the way alone, and what is computed from the part
keeps order: the point between the samples, its nearest nanosecond, and the clamp.
-/

namespace LoadTest

open Binary64

-- The number of units in one has a thousand binary digits, and no step here is to write them out.
attribute [local irreducible] Binary64.one

/-! ### Between two durations -/

namespace Duration

variable {d e lower upper : Duration}

theorem le_clamp (h : lower ≤ upper) (d : Duration) : lower ≤ d.clamp lower upper := by
  unfold clamp
  split
  · exact Nat.le_refl _
  · next hlower =>
    split
    · exact h
    · exact Nat.not_lt.mp hlower

theorem clamp_le (h : lower ≤ upper) (d : Duration) : d.clamp lower upper ≤ upper := by
  unfold clamp
  split
  · exact h
  · split
    · exact Nat.le_refl _
    · next hupper => exact Nat.not_lt.mp hupper

theorem clamp_mono (h : lower ≤ upper) (hle : d ≤ e) : d.clamp lower upper ≤ e.clamp lower upper := by
  unfold clamp
  split_ifs <;> simp only [le_def, lt_def] at * <;> omega

theorem nanos_of_ofNanos? {n : Nat} (h : ofNanos? n = some d) : d.nanos = n := by
  unfold ofNanos? at h
  split at h
  · cases h
    rfl
  · cases h

theorem ofNanos?_mono {m n : Nat} (hle : m ≤ n) (hd : ofNanos? m = some d) (he : ofNanos? n = some e) :
    d ≤ e := by
  rw [le_def, nanos_of_ofNanos? hd, nanos_of_ofNanos? he]
  exact hle

end Duration

namespace Metric

variable {p q : Binary64} {count : Nat} {sorted : List Duration} {units further i : Nat} {d e x : Duration}

/-! ### Ranks -/

/-- The percentage asked for, brought onto the scale, in units. -/
def percentUnits : Binary64 → Nat
  | .nan => 0
  | .infinite negative => if negative then 0 else 100 * one
  | .finite negative units _ => if negative then 0 else min units (100 * one)

/-- The share of all ranks that a percentage is. -/
def partUnits (p : Binary64) : Nat := roundUnits (percentUnits p * one) (100 * one)

/-- The rank of a percentage among so many samples, in units. -/
def rankUnits (p : Binary64) (count : Nat) : Nat := roundUnits (partUnits p * ((count - 1) * one)) one

theorem measures_clampPercent (p : Binary64) : (clampPercent p).Measures (percentUnits p) := by
  have below : p ≤ 0 → percentUnits p = 0 → (clampPercent p).Measures (percentUnits p) := by
    intro hp hunits
    exact .inr ⟨hunits, clampPercent_of_le_zero hp⟩
  have beyond : 100 ≤ p → percentUnits p = 100 * one → (clampPercent p).Measures (percentUnits p) := by
    intro hp hunits
    rw [hunits, clampPercent_of_hundred_le hp]
    exact .inl hasUnits_hundred
  cases p with
  | nan => exact .inl hasUnits_zero
  | infinite negative =>
      obtain ⟨_, hzero⟩ := hasUnits_zero
      obtain ⟨_, hhundred⟩ := hasUnits_hundred
      cases negative with
      | false =>
          refine beyond ?_ rfl
          rw [hhundred]
          rfl
      | true =>
          refine below ?_ rfl
          rw [hzero]
          rfl
  | finite negative units h =>
      cases negative with
      | false =>
          have hunits : (Binary64.finite false units h).HasUnits units := ⟨h, rfl⟩
          rcases Nat.le_total units (100 * one) with hle | hge
          · rw [percentUnits, if_neg Bool.false_ne_true, Nat.min_eq_left hle,
              clampPercent_eq_self ((hasUnits_zero.le_iff hunits).mpr (Nat.zero_le _))
                ((hunits.le_iff hasUnits_hundred).mpr hle)]
            exact .inl hunits
          · exact beyond ((hasUnits_hundred.le_iff hunits).mpr hge)
              (by rw [percentUnits, if_neg Bool.false_ne_true, Nat.min_eq_right hge])
      | true =>
          refine below ?_ rfl
          obtain ⟨_, hzero⟩ := hasUnits_zero
          rw [hzero]
          exact decide_eq_true (show -(units : Int) ≤ 0 by omega)

theorem percentUnits_le (p : Binary64) : percentUnits p ≤ 100 * one := by
  unfold percentUnits
  split
  · exact Nat.zero_le _
  · split
    · exact Nat.zero_le _
    · exact Nat.le_refl _
  · split
    · exact Nat.zero_le _
    · exact Nat.min_le_right ..

/-- A higher percentage is not lower on the scale, although it may be at the same end of it. -/
theorem percentUnits_mono (h : p ≤ q) : percentUnits p ≤ percentUnits q := by
  have hmost := percentUnits_le p
  change p.le q = true at h
  cases p with
  | nan => exact Nat.zero_le _
  | infinite negative =>
      cases negative with
      | true => exact Nat.zero_le _
      | false =>
          -- Only infinity is not below infinity.
          cases q with
          | infinite negative =>
              cases negative with
              | false => exact Nat.le_refl _
              | true => cases h
          | _ => cases h
  | finite negative least hleast =>
      cases negative with
      | true => exact Nat.zero_le _
      | false =>
          cases q with
          | nan => cases h
          | infinite negative =>
              cases negative with
              | false => exact hmost
              | true => cases h
          | finite negative units hunits =>
              cases negative with
              | false =>
                  have hle : (least : Int) ≤ units := of_decide_eq_true h
                  exact Nat.le_min.mpr ⟨Nat.le_trans (Nat.min_le_left ..) (Int.ofNat_le.mp hle), hmost⟩
              | true =>
                  have hle : (least : Int) ≤ -(units : Int) := of_decide_eq_true h
                  obtain rfl : least = 0 := by omega
                  show min 0 (100 * one) ≤ 0
                  exact Nat.min_le_left ..

theorem partUnits_le (p : Binary64) : partUnits p ≤ one := by
  refine roundUnits_le representable_one (Nat.mul_pos (by decide) Binary64.one_pos) ?_
  rw [Nat.mul_comm]
  exact Nat.mul_le_mul_left _ (percentUnits_le p)

theorem representable_last (few : count ≤ 2 ^ 53) : Representable ((count - 1) * one) :=
  (hasUnits_ofNat_of_le (by omega)).representable

/-- No rank is past the last one. -/
theorem rankUnits_le (p : Binary64) (few : count ≤ 2 ^ 53) : rankUnits p count ≤ (count - 1) * one := by
  refine roundUnits_le (representable_last few) Binary64.one_pos ?_
  rw [Nat.mul_comm]
  exact Nat.mul_le_mul_left _ (partUnits_le p)

/-- **A higher percentage never has a lower rank.** -/
theorem rankUnits_mono (h : p ≤ q) (count : Nat) : rankUnits p count ≤ rankUnits q count := by
  have hhundred : 0 < 100 * one := Nat.mul_pos (by decide) Binary64.one_pos
  have hpart : partUnits p ≤ partUnits q := by
    refine roundUnits_mono hhundred hhundred ?_
    gcongr
    exact percentUnits_mono h
  refine roundUnits_mono Binary64.one_pos Binary64.one_pos ?_
  gcongr

theorem measures_rank (p : Binary64) (few : count ≤ 2 ^ 53) : (rank p count).Measures (rankUnits p count) := by
  have hpart := (measures_clampPercent p).div hasUnits_hundred (Nat.mul_pos (by decide) Binary64.one_pos)
    (Nat.lt_of_le_of_lt (partUnits_le p) one_lt_limit)
  exact hpart.mul (hasUnits_ofNat_of_le (by omega))
    (Nat.lt_of_le_of_lt (rankUnits_le p few) (representable_last few).1)

/-! ### Where a percentile lies -/

theorem pointUnits_mono (lower upper : Duration) {part further : Nat} (h : part ≤ further) :
    pointUnits lower upper part ≤ pointUnits lower upper further := by
  refine roundUnits_mono Nat.one_pos Nat.one_pos ?_
  gcongr
  refine roundUnits_mono Binary64.one_pos Binary64.one_pos ?_
  gcongr

theorem le_of_ascending_of_le {j : Nat} (ascending : sorted.Pairwise (· ≤ ·)) (hij : i ≤ j) (hi : sorted[i]? = some d)
    (hj : sorted[j]? = some e) : d ≤ e := by
  rcases Nat.lt_or_eq_of_le hij with hlt | rfl
  · exact le_of_ascending ascending hlt hi hj
  · obtain rfl : d = e := Option.some.inj (hi.symm.trans hj)
    exact Nat.le_refl _

namespace AtRank

/-- A sample at or before the rank is not longer than what stands there. -/
theorem ge (h : AtRank sorted units d) (ascending : sorted.Pairwise (· ≤ ·)) (there : sorted[i]? = some x)
    (hi : i * one ≤ units) : x ≤ d := by
  have hfloor : i ≤ units / one := (Nat.le_div_iff_mul_le Binary64.one_pos).mpr hi
  cases h with
  | sample _ here => exact le_of_ascending_of_le ascending hfloor there here
  | between _ before behind _ =>
      refine Nat.le_trans (le_of_ascending_of_le ascending hfloor there before) (Duration.le_clamp ?_ _)
      exact le_of_ascending ascending (Nat.lt_add_one _) before behind

/-- A sample at or behind the rank is not shorter than what stands there. -/
theorem le (h : AtRank sorted units d) (ascending : sorted.Pairwise (· ≤ ·)) (there : sorted[i]? = some x)
    (hi : units ≤ i * one) : d ≤ x := by
  have hfloor : units / one ≤ i := Nat.div_le_of_le_mul (by rwa [Nat.mul_comm])
  cases h with
  | sample _ here => exact le_of_ascending_of_le ascending hfloor here there
  | between part before behind _ =>
      have hless := div_lt_of_part hi part
      refine Nat.le_trans (Duration.clamp_le ?_ _) (le_of_ascending_of_le ascending hless behind there)
      exact le_of_ascending ascending (Nat.lt_add_one _) before behind

theorem exists_before (h : AtRank sorted units d) : ∃ lower, sorted[units / one]? = some lower := by
  cases h with
  | sample _ here => exact ⟨_, here⟩
  | between _ before _ _ => exact ⟨_, before⟩

/-- **What stands at a higher rank is not shorter.** -/
theorem mono (first : AtRank sorted units d) (second : AtRank sorted further e)
    (ascending : sorted.Pairwise (· ≤ ·)) (h : units ≤ further) : d ≤ e := by
  have hpos := Binary64.one_pos
  rcases Nat.lt_or_ge (units / one) (further / one) with hapart | htogether
  · -- The sample before the second rank is behind the first.
    obtain ⟨x, hx⟩ := second.exists_before
    have hbehind : units ≤ further / one * one :=
      Nat.le_of_lt ((Nat.div_lt_iff_lt_mul hpos).mp hapart)
    exact Nat.le_trans (first.le ascending hx hbehind) (second.ge ascending hx (Nat.div_mul_le_self ..))
  · have hsame : units / one = further / one := Nat.le_antisymm (Nat.div_le_div_right h) htogether
    have hunits := Nat.div_add_mod units one
    have hfurther := Nat.div_add_mod further one
    cases first with
    | sample whole here =>
        refine second.ge ascending here ?_
        rw [Nat.mul_comm]
        omega
    | @between lower upper point part before behind nearest =>
        have hle := le_of_ascending ascending (Nat.lt_add_one _) before behind
        rw [hsame] at before behind hunits
        cases second with
        | sample whole here => exact absurd (by omega) part
        | @between lower' upper' point' part' before' behind' nearest' =>
            obtain rfl : lower = lower' := Option.some.inj (before.symm.trans before')
            obtain rfl : upper = upper' := Option.some.inj (behind.symm.trans behind')
            refine Duration.clamp_mono hle (Duration.ofNanos?_mono ?_ nearest nearest')
            refine roundDiv_mono hpos hpos ?_
            gcongr
            exact pointUnits_mono lower upper (by omega)

end AtRank

/-! ### Percentiles in order -/

/-- The figures of a trend in the order of their percentages. -/
structure TrendSummary.Climbs (t : TrendSummary) : Prop where
  min_le_med : t.min ≤ t.med
  med_le_p90 : t.med ≤ t.p90
  p90_le_p95 : t.p90 ≤ t.p95
  p95_le_p99 : t.p95 ≤ t.p99
  p99_le_max : t.p99 ≤ t.max

/-- What is in order about the percentiles of samples. -/
structure Ordered (sorted : List Duration) : Prop where
  /-- There is every percentile, between the samples below and above its rank. -/
  bracketed (p : Binary64) : ∃ d lower upper, percentile? sorted p = some d
    ∧ sorted[(rank p sorted.length).toNatBelow rankBound]? = some lower
    ∧ sorted[(rank p sorted.length).ceilBelow rankBound]? = some upper
    ∧ lower ≤ upper ∧ lower ≤ d ∧ d ≤ upper
  first {p : Binary64} (low : p ≤ 0 ∨ p.isNaN = true) : percentile? sorted p = sorted.head?
  last {p : Binary64} (high : 100 ≤ p) : percentile? sorted p = sorted.getLast?
  monotone {p q : Binary64} (h : p ≤ q) :
    ∃ d e, percentile? sorted p = some d ∧ percentile? sorted q = some e ∧ d ≤ e
  named : ∃ min med p90 p95 p99 max, sorted.head? = some min ∧ percentile? sorted 50 = some med
    ∧ percentile? sorted 90 = some p90 ∧ percentile? sorted 95 = some p95 ∧ percentile? sorted 99 = some p99
    ∧ sorted.getLast? = some max ∧ min ≤ med ∧ med ≤ p90 ∧ p90 ≤ p95 ∧ p95 ≤ p99 ∧ p99 ≤ max
  summarised (hsum : Duration.totalNanos sorted < Duration.limit) :
    ∃ summary, TrendSummary.ofSorted? sorted = some summary ∧ summary.Climbs

/-- The samples at which a percentile is looked up have it between them. -/
theorem AtRank.bracketed (h : AtRank sorted (rankUnits p sorted.length) d) (ascending : sorted.Pairwise (· ≤ ·))
    (few : sorted.length < 2 ^ 53) :
    ∃ lower upper, sorted[(rank p sorted.length).toNatBelow rankBound]? = some lower
      ∧ sorted[(rank p sorted.length).ceilBelow rankBound]? = some upper
      ∧ lower ≤ upper ∧ lower ≤ d ∧ d ≤ upper := by
  have hunits := measures_rank p (Nat.le_of_lt few)
  have hle := rankUnits_le p (Nat.le_of_lt few)
  have hlast : sorted.length - 1 < rankBound := by
    simp only [rankBound, UInt64.size]
    omega
  rw [below_eq hunits hle hlast]
  cases h with
  | sample whole here =>
      rw [above_eq_of_whole hunits hle hlast whole]
      exact ⟨d, d, here, here, Nat.le_refl _, Nat.le_refl _, Nat.le_refl _⟩
  | @between lower upper point part before behind _ =>
      have hordered := le_of_ascending ascending (Nat.lt_add_one _) before behind
      have hrank := hunits.hasUnits fun hzero => part (by rw [hzero, Nat.zero_mod])
      rw [above_eq_of_part hrank hle hlast part]
      exact ⟨lower, upper, before, behind, hordered, Duration.le_clamp hordered point,
        Duration.clamp_le hordered point⟩

/-- What is no number counts as zero. -/
theorem percentile?_of_isNaN (h : p.isNaN = true) : percentile? sorted p = percentile? sorted 0 := by
  have hclamp : clampPercent p = clampPercent 0 := by
    rw [clampPercent, if_pos h, clampPercent_eq_self]
    · exact (hasUnits_zero.le_iff hasUnits_zero).mpr (Nat.le_refl _)
    · exact (hasUnits_zero.le_iff hasUnits_hundred).mpr (Nat.zero_le _)
  unfold percentile? rank
  rw [hclamp]

theorem percentile?_zero (hsome : sorted ≠ []) (few : sorted.length < 2 ^ 53) : percentile? sorted 0 = sorted.head? :=
  percentile?_of_le_zero ((hasUnits_zero.le_iff hasUnits_zero).mpr (Nat.le_refl _)) hsome (by omega)

section Samples

variable (ascending : sorted.Pairwise (· ≤ ·)) (hsome : sorted ≠ []) (few : sorted.length < 2 ^ 53)
  (short : ∀ d ∈ sorted, d.seconds < 2 ^ 63)

include ascending hsome few short

/-- **There is every percentile of samples below `2 ^ 63` seconds.** -/
theorem exists_percentile (p : Binary64) :
    ∃ d, percentile? sorted p = some d ∧ AtRank sorted (rankUnits p sorted.length) d := by
  refine exists_atRank ascending hsome ?_ (by omega) (measures_rank p (Nat.le_of_lt few))
    (rankUnits_le p (Nat.le_of_lt few))
  intro i lower upper before behind
  have hnanos : ∀ d ∈ sorted, d.nanos < 2 ^ 63 * 1_000_000_000 := fun d mem =>
    (Nat.div_lt_iff_lt_mul (by decide)).mp (short d mem)
  have hlower := hnanos lower (List.mem_of_getElem? before)
  have hupper := hnanos upper (List.mem_of_getElem? behind)
  have hlimit : Duration.limit = 2 ^ 64 * 1_000_000_000 := by norm_num [Duration.limit, UInt64.size]
  omega

/-- The percentiles that a summary names, from the first sample to the last. -/
theorem exists_named : ∃ min med p90 p95 p99 max, sorted.head? = some min ∧ percentile? sorted 50 = some med
    ∧ percentile? sorted 90 = some p90 ∧ percentile? sorted 95 = some p95 ∧ percentile? sorted 99 = some p99
    ∧ sorted.getLast? = some max ∧ min ≤ med ∧ med ≤ p90 ∧ p90 ≤ p95 ∧ p95 ≤ p99 ∧ p99 ≤ max := by
  have hexists := exists_percentile ascending hsome few short
  have hmono : ∀ {m n : Nat} {d e : Duration}, m ≤ n →
      AtRank sorted (rankUnits (OfNat.ofNat m) sorted.length) d →
      AtRank sorted (rankUnits (OfNat.ofNat n) sorted.length) e → d ≤ e := fun hle first second =>
    first.mono second ascending (rankUnits_mono (ofNat_le_ofNat hle) _)
  obtain ⟨min, hmin, atMin⟩ := hexists 0
  obtain ⟨med, hmed, atMed⟩ := hexists 50
  obtain ⟨p90, hp90, at90⟩ := hexists 90
  obtain ⟨p95, hp95, at95⟩ := hexists 95
  obtain ⟨p99, hp99, at99⟩ := hexists 99
  obtain ⟨max, hmax, atMax⟩ := hexists 100
  rw [percentile?_zero hsome few] at hmin
  rw [percentile?_of_hundred_le ((hasUnits_hundred.le_iff hasUnits_hundred).mpr (Nat.le_refl _)) hsome
    (by omega)] at hmax
  exact ⟨min, med, p90, p95, p99, max, hmin, hmed, hp90, hp95, hp99, hmax, hmono (by decide) atMin atMed,
    hmono (by decide) atMed at90, hmono (by decide) at90 at95, hmono (by decide) at95 at99,
    hmono (by decide) at99 atMax⟩

/-- Milliseconds keep the order of the durations. -/
theorem climbs_of_ofSorted? {summary : TrendSummary} (h : TrendSummary.ofSorted? sorted = some summary) :
    summary.Climbs := by
  obtain ⟨min, med, p90, p95, p99, max, hmin, hmed, hp90, hp95, hp99, hmax, least, low, high, higher, greatest⟩ :=
    exists_named ascending hsome few short
  obtain ⟨total, med', p90', p95', p99', -, hmed', hp90', hp95', hp99', rfl⟩ := TrendSummary.eq_of_ofSorted? h
  obtain rfl : med = med' := Option.some.inj (hmed.symm.trans hmed')
  obtain rfl : p90 = p90' := Option.some.inj (hp90.symm.trans hp90')
  obtain rfl : p95 = p95' := Option.some.inj (hp95.symm.trans hp95')
  obtain rfl : p99 = p99' := Option.some.inj (hp99.symm.trans hp99')
  constructor
  · show (sorted.head?.map Duration.toMillis).getD 0 ≤ med.toMillis
    rw [hmin, Option.map_some, Option.getD_some]
    exact Duration.toMillis_mono least
  · exact Duration.toMillis_mono low
  · exact Duration.toMillis_mono high
  · exact Duration.toMillis_mono higher
  · show p99.toMillis ≤ (sorted.getLast?.map Duration.toMillis).getD 0
    rw [hmax, Option.map_some, Option.getD_some]
    exact Duration.toMillis_mono greatest

/-- **The percentiles of ascending samples are in order.** -/
theorem ordered_of_ascending : Ordered sorted where
  bracketed p := by
    obtain ⟨d, hd, atRank⟩ := exists_percentile ascending hsome few short p
    obtain ⟨lower, upper, hbracket⟩ := atRank.bracketed ascending few
    exact ⟨d, lower, upper, hd, hbracket⟩
  first := by
    rintro p (low | nan)
    · exact percentile?_of_le_zero low hsome (by omega)
    · rw [percentile?_of_isNaN nan, percentile?_zero hsome few]
  last high := percentile?_of_hundred_le high hsome (by omega)
  monotone {p q} h := by
    obtain ⟨d, hd, first⟩ := exists_percentile ascending hsome few short p
    obtain ⟨e, he, second⟩ := exists_percentile ascending hsome few short q
    exact ⟨d, e, hd, he, first.mono second ascending (rankUnits_mono h _)⟩
  named := exists_named ascending hsome few short
  summarised hsum := by
    obtain ⟨summary, hsummary⟩ := Option.isSome_iff_exists.mp
      ((TrendSummary.isSome_ofSorted?_iff ascending (by omega)).mpr hsum)
    exact ⟨summary, hsummary, climbs_of_ofSorted? ascending hsome few short hsummary⟩

end Samples

/-- Three quick answers and a slow one. -/
def answers : List Duration := [.ofMillis 10, .ofMillis 20, .ofMillis 20, .ofSeconds 5]

theorem answers_ordered : Ordered answers ∧ percentile? answers 20 = some (.ofMillis 16)
    ∧ percentile? answers 99 = some ⟨4_850_600_000, by decide⟩ :=
  ⟨ordered_of_ascending (by decide) (by decide) (by decide) (by decide), by decide +kernel, by decide +kernel⟩

end Metric

end LoadTest
