import LoadTest.Proofs.Metric.Addition
import LoadTest.Proofs.Metric.Percentile
import LoadTest.Proofs.Metric.Snapshot

/-!
# LoadTest.Proofs.Metric.Totals

A sink against plain totals and multisets. **Shards, turns and the order of additions leave no trace:** what
a snapshot holds of a series is the sum, the counts or the samples, in ascending order, of the additions
that name it. There is a snapshot as long as the samples of every trend have a sum.
-/

namespace LoadTest.Metric

open Binary64

-- The number of units in one has a thousand binary digits, and no step here is to write them out.
attribute [local irreducible] Binary64.one

/-! ### Samples in order -/

namespace Trend

theorem sorted_perm (t : Trend) : t.sorted.Perm t.samples := List.mergeSort_perm ..

theorem ascending_sorted (t : Trend) : t.sorted.Pairwise (· ≤ ·) := by
  have hsorted : (t.samples.mergeSort fun a b => decide (a ≤ b)).Pairwise fun a b => decide (a ≤ b) = true := by
    refine List.pairwise_mergeSort ?_ ?_ _
    · intro a b c hab hbc
      exact decide_eq_true (Nat.le_trans (of_decide_eq_true hab) (of_decide_eq_true hbc))
    · intro a b
      simpa [Duration.le_def] using Nat.le_total a.nanos b.nanos
  rw [sorted]
  simpa only [decide_eq_true_eq] using hsorted

theorem sorted_congr {t t' : Trend} (h : t.samples.Perm t'.samples) : t.sorted = t'.sorted := by
  have hperm := (t.sorted_perm.trans h).trans t'.sorted_perm.symm
  refine hperm.eq_of_pairwise ?_ t.ascending_sorted t'.ascending_sorted
  intro a b _ _ hab hba
  exact Duration.ext (Nat.le_antisymm hab hba)

theorem size_eq (t : Trend) : t.size = t.samples.length := by
  unfold size samples
  induction t.shards with
  | nil => rfl
  | cons shard rest ih => simp [ih]

end Trend

theorem totalNanos_congr {a b : List Duration} (h : a.Perm b) : Duration.totalNanos a = Duration.totalNanos b := by
  induction h with
  | nil => rfl
  | cons d _ ih => simp only [Duration.totalNanos, ih]
  | swap d e rest =>
      simp only [Duration.totalNanos]
      omega
  | trans _ _ first second => exact first.trans second

/-- **Ascending samples have a summary exactly if they have a sum.** -/
theorem TrendSummary.isSome_ofSorted?_iff {sorted : List Duration} (ascending : sorted.Pairwise (· ≤ ·))
    (hcount : sorted.length ≤ 2 ^ 64) :
    (ofSorted? sorted).isSome = true ↔ Duration.totalNanos sorted < Duration.limit := by
  constructor
  · intro hsome
    obtain ⟨summary, hsummary⟩ := Option.isSome_iff_exists.mp hsome
    obtain ⟨total, _, _, _, _, htotal, -⟩ := eq_of_ofSorted? hsummary
    by_contra hlarge
    rw [Duration.sum?, Duration.ofNanos?, dif_neg hlarge] at htotal
    exact absurd htotal.symm (Option.some_ne_none _)
  · intro hsum
    have hnamed : ∀ n < 100, ∃ point, Metric.percentile? sorted (ofNat n) = some point := fun n hn =>
      Option.isSome_iff_exists.mp (isSome_percentile? ascending hsum hcount (rankFits_ofNat hn hcount))
    obtain ⟨total, htotal⟩ := Option.isSome_iff_exists.mp (Duration.isSome_ofNanos? hsum)
    obtain ⟨med, hmed⟩ := hnamed 50 (by decide)
    obtain ⟨p90, hp90⟩ := hnamed 90 (by decide)
    obtain ⟨p95, hp95⟩ := hnamed 95 (by decide)
    obtain ⟨p99, hp99⟩ := hnamed 99 (by decide)
    have hsome : (ofSorted? sorted).isSome = true := by
      unfold ofSorted?
      exact Option.isSome_iff_exists.mpr ⟨_, Option.bind_eq_some_iff.mpr ⟨total, htotal,
        Option.bind_eq_some_iff.mpr ⟨med, hmed, Option.bind_eq_some_iff.mpr ⟨p90, hp90,
        Option.bind_eq_some_iff.mpr ⟨p95, hp95, Option.bind_eq_some_iff.mpr ⟨p99, hp99, rfl⟩⟩⟩⟩⟩⟩
    exact hsome

/-! ### Shares -/

theorem Rate.total_of_le {hits observed : UInt64} (hle : hits ≤ observed) :
    Rate.total ⟨hits, observed⟩ = observed := by
  show (if observed ≤ hits then hits else observed) = observed
  split
  · next hge => exact UInt64.le_antisymm hle hge
  · rfl

/-- The units of a share. -/
def shareUnits (hits total : UInt64) : Nat :=
  roundUnits (roundUnits (hits.toNat * one) 1 * one) (roundUnits (total.toNat * one) 1)

theorem hasUnits_share {hits total : UInt64} (hle : hits ≤ total) (hpos : 0 < total.toNat) :
    (Rate.share hits total).HasUnits (shareUnits hits total) ∧ shareUnits hits total ≤ one := by
  have hunits : ∀ n : UInt64, (ofNat n.toNat).HasUnits (roundUnits (n.toNat * one) 1) := fun n =>
    hasUnits_ofNat (Duration.representable_whole (Nat.le_of_lt n.toNat_lt)).1
  have hmono : roundUnits (hits.toNat * one) 1 ≤ roundUnits (total.toNat * one) 1 :=
    roundUnits_mono Nat.one_pos Nat.one_pos (by gcongr; exact hle)
  have hdivisor : 0 < roundUnits (total.toNat * one) 1 :=
    Nat.lt_of_lt_of_le Binary64.one_pos (le_roundUnits_ofNat hpos)
  have hmost : shareUnits hits total ≤ one := by
    refine roundUnits_le representable_one hdivisor ?_
    rw [Nat.mul_comm]
    exact Nat.mul_le_mul_left one hmono
  refine ⟨?_, hmost⟩
  rw [Rate.share, if_neg (by rintro rfl; simp at hpos)]
  exact (hunits hits).div (hunits total) hdivisor (Nat.lt_of_le_of_lt hmost one_lt_limit)

/-- A share is zero exactly if there was no hit. -/
theorem share_eq_zero_iff {hits total : UInt64} (hle : hits ≤ total) :
    (Rate.share hits total).eq 0 = true ↔ hits = 0 := by
  rcases Nat.eq_zero_or_pos total.toNat with hnone | hpos
  · have hhits : hits = 0 := UInt64.toNat_inj.mp (Nat.le_zero.mp (hnone ▸ hle))
    have htotal : total = 0 := UInt64.toNat_inj.mp hnone
    refine iff_of_true ?_ hhits
    rw [hhits, htotal, Rate.share, if_pos rfl]
    exact hasUnits_zero.eq_self
  obtain ⟨hunits, -⟩ := hasUnits_share hle hpos
  have heq : (Rate.share hits total).eq 0 = true ↔ shareUnits hits total = 0 := by
    rw [Binary64.eq, Bool.and_eq_true]
    refine (and_congr (hunits.le_iff hasUnits_zero) (hasUnits_zero.le_iff hunits)).trans ?_
    omega
  rw [heq]
  constructor
  · intro hzero
    by_contra hhits
    have hhit : one ≤ roundUnits (hits.toNat * one) 1 := le_roundUnits_ofNat (by
      refine Nat.pos_of_ne_zero fun hnone => hhits (UInt64.toNat_inj.mp hnone))
    have htotal : roundUnits (total.toNat * one) 1 ≤ 2 ^ 64 * one :=
      Duration.roundUnits_seconds_le (Nat.le_of_lt total.toNat_lt)
    have hlarge : 2 ^ 64 ≤ one := by
      rw [one_eq]
      exact pow_le_pow_right₀ (by decide) (by decide)
    -- Even one hit of as many as there can be is more than the least double.
    have hleast : 1 ≤ shareUnits hits total := by
      refine le_roundUnits ⟨Nat.lt_of_le_of_lt Binary64.one_pos one_lt_limit, 1, 0, by decide, rfl⟩
        (Nat.lt_of_lt_of_le Binary64.one_pos (le_roundUnits_ofNat hpos)) ?_
      calc 1 * roundUnits (total.toNat * one) 1
          _ ≤ 2 ^ 64 * one := by omega
          _ ≤ one * one := Nat.mul_le_mul_right one hlarge
          _ ≤ roundUnits (hits.toNat * one) 1 * one := Nat.mul_le_mul_right one hhit
    omega
  · rintro rfl
    simp [shareUnits]

/-! ### Series on their own -/

/-- The series an addition goes to. -/
def Addition.series : Addition → String × Kind
  | .count name _ => (name, .counter)
  | .observe name _ => (name, .rate)
  | .sample name _ => (name, .trend)

/-- Two snapshots hold the same of one series. -/
def Snapshot.Agree (a b : Snapshot) : String × Kind → Prop
  | (name, .counter) => a.counters.find? name = b.counters.find? name
  | (name, .rate) => a.rates.find? name = b.rates.find? name
  | (name, .trend) => a.trends.find? name = b.trends.find? name

namespace Sink

/-- Two sinks hold the same of one series. -/
def Agree (a b : Sink) : String × Kind → Prop
  | (name, .counter) => a.counters.find? name = b.counters.find? name
  | (name, .rate) => a.rates.find? name = b.rates.find? name
  | (name, .trend) => a.trends.find? name = b.trends.find? name

/-- **An addition to one series changes no other.** -/
theorem add_agree (sink : Sink) {addition : Addition} {series : String × Kind}
    (other : series ≠ addition.series) : (sink.add addition).Agree sink series := by
  obtain ⟨name, kind⟩ := series
  have hname : ∀ {named : String}, addition.series = (named, kind) → name ≠ named := by
    rintro named heq rfl
    exact other heq.symm
  cases addition with
  | count named n =>
      cases kind with
      | counter => exact Table.find?_modify_of_ne _ _ (hname rfl)
      | rate => rfl
      | trend => rfl
  | observe named hit =>
      cases kind with
      | counter => rfl
      | rate => exact Table.find?_modify_of_ne _ _ (hname rfl)
      | trend => rfl
  | sample named duration =>
      cases kind with
      | counter => rfl
      | rate => rfl
      | trend => exact Table.find?_modify_of_ne _ _ (hname rfl)

theorem find?_trends_of_snapshot? {sink : Sink} {snapshot : Snapshot} (h : sink.snapshot? = some snapshot)
    (name : String) : snapshot.trends.find? name
      = (sink.trends.find? name).bind fun trend => TrendSummary.ofSorted? trend.sorted := by
  obtain ⟨trends, htrends, hsnapshot⟩ := Option.bind_eq_some_iff.mp h
  cases hsnapshot
  exact Table.find?_of_mapM? htrends name

/-- Two snapshots hold the same of a series if the sinks did. -/
theorem Agree.snapshots {a b : Sink} {before after : Snapshot} {series : String × Kind} (h : a.Agree b series)
    (hbefore : a.snapshot? = some before) (hafter : b.snapshot? = some after) : before.Agree after series := by
  obtain ⟨name, kind⟩ := series
  cases kind with
  | counter =>
      change a.counters.find? name = _ at h
      show before.counters.find? name = after.counters.find? name
      rw [counters_of_snapshot? hbefore, counters_of_snapshot? hafter, Table.find?_map, Table.find?_map, h]
  | rate =>
      change a.rates.find? name = _ at h
      show before.rates.find? name = after.rates.find? name
      rw [rates_of_snapshot? hbefore, rates_of_snapshot? hafter, Table.find?_map, Table.find?_map, h]
  | trend =>
      change a.trends.find? name = _ at h
      show before.trends.find? name = after.trends.find? name
      rw [find?_trends_of_snapshot? hbefore, find?_trends_of_snapshot? hafter, h]

/-- A snapshot hangs on the samples of each trend, however they are dealt out. -/
theorem snapshot?_eq (sink : Sink) : sink.snapshot?
    = ((sink.trends.map (·.sorted)).mapM? TrendSummary.ofSorted?).map fun summaries =>
        ⟨sink.counters.map (·.value), sink.rates.map (·.summary), summaries⟩ := by
  rw [Table.mapM?_map, Option.map_eq_bind]
  rfl

theorem snapshot?_congr {a b : Sink} (counters : a.counters = b.counters) (rates : a.rates = b.rates)
    (trends : a.trends.map (·.sorted) = b.trends.map (·.sorted)) : a.snapshot? = b.snapshot? := by
  rw [snapshot?_eq, snapshot?_eq, counters, rates, trends]

end Sink

/-! ### Recorded totals -/

section Recorded

variable {series : List (String × Kind)} {shards : Nat} {additions : List Addition}

/-- A sink of declared series after additions. -/
def recorded (series : List (String × Kind)) (shards : Nat) (additions : List Addition) : Sink :=
  (Sink.ofSeries series shards).addAll additions

/-- The samples for a trend, in the order of the additions. -/
def samplesFor (name : String) (additions : List Addition) : List Duration :=
  additions.flatMap (·.samples name)

theorem find?_counters_recorded (name : String) :
    (recorded series shards additions).counters.find? name
      = if (name, .counter) ∈ series then some ⟨.ofNat (additions.map (·.counted name)).sum⟩ else none := by
  rw [recorded, Sink.find?_counters_addAll, Sink.find?_counters_ofSeries]
  split <;> simp [Counter.zero]

theorem find?_rates_recorded (name : String) :
    (recorded series shards additions).rates.find? name
      = if (name, .rate) ∈ series then
          some ⟨.ofNat (additions.map (·.hits name)).sum, .ofNat (additions.map (·.observed name)).sum⟩
        else none := by
  rw [recorded, Sink.find?_rates_addAll, Sink.find?_rates_ofSeries]
  split <;> simp [Rate.zero]

theorem find?_trends_recorded (name : String) :
    (recorded series shards additions).trends.find? name
      = if (name, .trend) ∈ series then some ((samplesFor name additions).foldl Trend.add (.ofShards shards))
        else none := by
  rw [recorded, Sink.find?_trends_addAll, Sink.find?_trends_ofSeries]
  split <;> rfl

/-- **Neither the number of shards nor the order of additions can be told from a snapshot.** -/
theorem snapshot?_recorded_congr {others : Nat} {reordered : List Addition} (same : reordered.Perm additions) :
    (recorded series others reordered).snapshot? = (recorded series shards additions).snapshot? := by
  refine Sink.snapshot?_congr (Table.ext_find? fun name => ?_) (Table.ext_find? fun name => ?_)
    (Table.ext_find? fun name => ?_)
  · rw [find?_counters_recorded, find?_counters_recorded, (same.map _).sum_nat]
  · rw [find?_rates_recorded, find?_rates_recorded, (same.map _).sum_nat, (same.map (·.observed name)).sum_nat]
  · rw [Table.find?_map, Table.find?_map, find?_trends_recorded, find?_trends_recorded]
    split
    · simp only [Option.map_some, Option.some.injEq]
      refine Trend.sorted_congr ?_
      exact ((Trend.samples_foldl_add_ofShards ..).trans (same.flatMap_right _)).trans
        (Trend.samples_foldl_add_ofShards ..).symm
    · rfl

/-- The trend of a declared name holds its samples, in ascending order. -/
theorem sorted_recorded (series : List (String × Kind)) (shards : Nat) (additions : List Addition) (name : String) :
    ∃ trend, ((name, .trend) ∈ series → (recorded series shards additions).trends.find? name = some trend)
      ∧ trend.sorted.Pairwise (· ≤ ·) ∧ trend.sorted.Perm (samplesFor name additions)
      ∧ trend.size = (samplesFor name additions).length := by
  have hsamples := Trend.samples_foldl_add_ofShards shards (samplesFor name additions)
  refine ⟨(samplesFor name additions).foldl Trend.add (.ofShards shards), ?_, Trend.ascending_sorted _,
    (Trend.sorted_perm _).trans hsamples, ?_⟩
  · intro declared
    rw [find?_trends_recorded, if_pos declared]
  · rw [Trend.size_eq, hsamples.length_eq]

/-- There is a snapshot exactly if the samples of each trend have a sum. -/
theorem isSome_snapshot?_recorded_iff
    (few : ∀ name, (name, .trend) ∈ series → (samplesFor name additions).length < 2 ^ 64) :
    (recorded series shards additions).snapshot?.isSome = true ↔ ∀ name, (name, .trend) ∈ series →
      Duration.totalNanos (samplesFor name additions) < Duration.limit := by
  have hsplit : (recorded series shards additions).snapshot?.isSome = true
      ↔ ((recorded series shards additions).trends.mapM? fun trend =>
          TrendSummary.ofSorted? trend.sorted).isSome = true := by
    unfold Sink.snapshot?
    cases (recorded series shards additions).trends.mapM? fun trend => TrendSummary.ofSorted? trend.sorted <;> rfl
  rw [hsplit, Table.isSome_mapM?_iff]
  refine forall_congr' fun name => ?_
  obtain ⟨trend, hfound, ascending, hperm, -⟩ :=
    sorted_recorded series shards additions name
  by_cases declared : (name, Kind.trend) ∈ series
  · have hsum : (TrendSummary.ofSorted? trend.sorted).isSome = true
        ↔ Duration.totalNanos (samplesFor name additions) < Duration.limit := by
      rw [TrendSummary.isSome_ofSorted?_iff ascending (hperm.length_eq ▸ Nat.le_of_lt (few name declared)),
        totalNanos_congr hperm]
    simp [hfound declared, declared, hsum]
  · simp [find?_trends_recorded, declared]

/-- Each declared rate and trend has so few additions that they can be counted. -/
structure Few (series : List (String × Kind)) (additions : List Addition) : Prop where
  observations : ∀ name, (name, .rate) ∈ series → (additions.map (·.observed name)).sum < 2 ^ 64
  samples : ∀ name, (name, .trend) ∈ series → (samplesFor name additions).length < 2 ^ 64

/-- A snapshot has the declared series and no other. -/
structure HasSeries (series : List (String × Kind)) (snapshot : Snapshot) : Prop where
  counters : ∀ name, name ∈ snapshot.counters.keys ↔ (name, .counter) ∈ series
  rates : ∀ name, name ∈ snapshot.rates.keys ↔ (name, .rate) ∈ series
  trends : ∀ name, name ∈ snapshot.trends.keys ↔ (name, .trend) ∈ series

theorem hasSeries_of_snapshot? {snapshot : Snapshot}
    (taken : (recorded series shards additions).snapshot? = some snapshot) : HasSeries series snapshot := by
  constructor <;> intro name
  · rw [← Table.isSome_find?_iff, Sink.counters_of_snapshot? taken, Table.find?_map, find?_counters_recorded]
    split <;> simp [*]
  · rw [← Table.isSome_find?_iff, Sink.rates_of_snapshot? taken, Table.find?_map, find?_rates_recorded]
    split <;> simp [*]
  · rw [Sink.keys_trends_of_snapshot? taken, ← Table.isSome_find?_iff, find?_trends_recorded]
    split <;> simp [*]

/-- What a sink and its snapshot say of additions is what plain totals and multisets of them are. -/
structure Tallies (series : List (String × Kind)) (additions : List Addition) (sink : Sink)
    (snapshot : Snapshot) : Prop where
  counters : ∀ name, name ∈ snapshot.counters.keys ↔ (name, .counter) ∈ series
  rates : ∀ name, name ∈ snapshot.rates.keys ↔ (name, .rate) ∈ series
  trends : ∀ name, name ∈ snapshot.trends.keys ↔ (name, .trend) ∈ series
  counter : ∀ name, (name, .counter) ∈ series → ∃ total, snapshot.counters.find? name = some total
    ∧ total.toNat = (additions.map (·.counted name)).sum % 2 ^ 64
  rate : ∀ name, (name, .rate) ∈ series → ∃ summary, snapshot.rates.find? name = some summary
    ∧ summary.hits.toNat = (additions.map (·.hits name)).sum
    ∧ summary.total.toNat = (additions.map (·.observed name)).sum
    ∧ summary.hits ≤ summary.total ∧ (summary.rate.eq 0 = true ↔ summary.hits = 0)
  trend : ∀ name, (name, .trend) ∈ series → ∃ trend summary, sink.trends.find? name = some trend
    ∧ snapshot.trends.find? name = some summary ∧ summary.sorted = trend.sorted
    ∧ trend.sorted.Pairwise (· ≤ ·) ∧ trend.sorted.Perm (samplesFor name additions)
    ∧ trend.size = (samplesFor name additions).length
    ∧ summary.count.toNat = (samplesFor name additions).length
  kind : ∀ name, sink.kindOf? name = snapshot.kindOf? name

theorem tallies_of_snapshot? {snapshot : Snapshot} (few : Few series additions)
    (taken : (recorded series shards additions).snapshot? = some snapshot) :
    Tallies series additions (recorded series shards additions) snapshot := by
  have hcounters := Sink.counters_of_snapshot? taken
  have hrates := Sink.rates_of_snapshot? taken
  obtain ⟨counters, rates, trends⟩ := hasSeries_of_snapshot? taken
  refine ⟨counters, rates, trends, ?_, ?_, ?_, fun name => (Sink.kindOf?_of_snapshot? taken name).symm⟩
  · intro name declared
    rw [hcounters, Table.find?_map, find?_counters_recorded, if_pos declared]
    exact ⟨_, rfl, UInt64.toNat_ofNat'⟩
  · intro name declared
    rw [hrates, Table.find?_map, find?_rates_recorded, if_pos declared]
    have hle := Addition.sum_hits_le name additions
    have hhits := UInt64.toNat_ofNat_of_lt' (Nat.lt_of_le_of_lt hle (few.observations name declared))
    have hobserved := UInt64.toNat_ofNat_of_lt' (few.observations name declared)
    have hword : UInt64.ofNat (additions.map (·.hits name)).sum
        ≤ UInt64.ofNat (additions.map (·.observed name)).sum := by
      rw [UInt64.le_iff_toNat_le, hhits, hobserved]
      exact hle
    have htotal := Rate.total_of_le hword
    refine ⟨_, rfl, hhits, ?_, ?_, ?_⟩
    · show (Rate.total _).toNat = _
      rw [htotal, hobserved]
    · show _ ≤ Rate.total _
      rw [htotal]
      exact hword
    · show (Rate.share _ (Rate.total _)).eq 0 = true ↔ _
      rw [htotal]
      exact share_eq_zero_iff hword
  · intro name declared
    obtain ⟨trend, hfound, ascending, hperm, hsize⟩ :=
      sorted_recorded series shards additions name
    obtain ⟨summary, hsummary, hsorted⟩ := Sink.trend_of_snapshot? taken (hfound declared)
    refine ⟨trend, summary, hfound declared, hsummary, TrendSummary.sorted_of_ofSorted? hsorted, ascending,
      hperm, hsize, ?_⟩
    rw [TrendSummary.count_of_ofSorted? hsorted, hperm.length_eq]
    exact UInt64.toNat_ofNat_of_lt' (few.samples name declared)

end Recorded

/-- **A sink refines plain totals and multisets.** For any declared series, any number of shards and any
additions, fewer than `2 ^ 64` of them per rate or trend: there is a snapshot as long as the samples of each
declared trend have a sum, and what it holds is what the additions come to. Their order and the number of
shards make no difference, and an addition changes the series that it names and no other. -/
theorem sink_refines_totals (series : List (String × Kind)) (additions : List Addition)
    (few : Few series additions) :
    (∀ shards, (recorded series shards additions).snapshot?.isSome = true ↔ ∀ name, (name, .trend) ∈ series →
        Duration.totalNanos (samplesFor name additions) < Duration.limit)
      ∧ (∀ shards snapshot, (recorded series shards additions).snapshot? = some snapshot →
        Tallies series additions (recorded series shards additions) snapshot)
      ∧ (∀ shards others reordered, reordered.Perm additions →
        (recorded series others reordered).snapshot? = (recorded series shards additions).snapshot?)
      ∧ ∀ (sink : Sink) (addition : Addition) (other : String × Kind), other ≠ addition.series →
        (sink.add addition).Agree sink other ∧ ∀ before after, sink.snapshot? = some before →
          (sink.add addition).snapshot? = some after → after.Agree before other := by
  refine ⟨fun shards => isSome_snapshot?_recorded_iff few.samples,
    fun shards snapshot taken => tallies_of_snapshot? few taken,
    fun shards others reordered same => snapshot?_recorded_congr same, ?_⟩
  intro sink addition other hother
  have hagree := sink.add_agree hother
  exact ⟨hagree, fun before after hbefore hafter => hagree.snapshots hafter hbefore⟩

/-- A trend, a rate and a counter of the trend's name; the trend is declared twice. -/
def declaredTwice : List (String × Kind) := [("t", .trend), ("ok", .rate), ("t", .counter), ("t", .trend)]

/-- Additions to these series. -/
def mixed : List Addition :=
  [.sample "t" (.ofMillis 30), .count "t" 5, .sample "t" (.ofMillis 10), .observe "ok" true,
    .sample "t" (.ofMillis 20), .observe "ok" false, .count "t" 2]

/-- Three samples on two shards, none lost and in order, and a counter of the same name beside them. -/
theorem mixed_tallied : Few declaredTwice mixed
    ∧ ∃ snapshot, (recorded declaredTwice 2 mixed).snapshot? = some snapshot
      ∧ snapshot.counters.find? "t" = some 7 ∧ snapshot.kindOf? "t" = some .counter
      ∧ (snapshot.trends.find? "t").map (·.sorted) = some [.ofMillis 10, .ofMillis 20, .ofMillis 30] := by
  have few : Few declaredTwice mixed := by
    constructor <;> intro name declared <;> simp [declaredTwice] at declared <;> subst declared <;> decide
  obtain ⟨snapshots, tallies, -, -⟩ := sink_refines_totals declaredTwice mixed few
  have hsome : (recorded declaredTwice 2 mixed).snapshot?.isSome = true := by
    refine (snapshots 2).mpr fun name declared => ?_
    obtain rfl : name = "t" := by simpa [declaredTwice] using declared
    decide
  obtain ⟨snapshot, taken⟩ := Option.isSome_iff_exists.mp hsome
  have hall := tallies 2 snapshot taken
  refine ⟨few, snapshot, taken, ?_, ?_, ?_⟩
  · obtain ⟨total, hfound, htotal⟩ := hall.counter "t" (by decide)
    rw [hfound, Option.some.injEq]
    exact UInt64.toNat_inj.mp (htotal.trans (by decide))
  · rw [← hall.kind]
    decide +kernel
  · obtain ⟨trend, summary, -, hfound, hsorted, ascending, hperm, -⟩ := hall.trend "t" (by decide)
    rw [hfound, Option.map_some, hsorted, Option.some.injEq]
    refine (hperm.trans (by decide)).eq_of_pairwise ?_ ascending (by decide)
    intro a b _ _ hab hba
    exact Duration.ext (Nat.le_antisymm hab hba)

/-- The longest duration there is. -/
def longest : Duration := ⟨Duration.limit - 1, by decide⟩

/-- **Two samples can be too long for a sum,** and then there is no snapshot. -/
theorem two_longest_have_no_snapshot :
    Few [("t", .trend)] [.sample "t" longest, .sample "t" longest]
      ∧ (recorded [("t", .trend)] 16 [.sample "t" longest, .sample "t" longest]).snapshot? = none := by
  have few : Few [("t", .trend)] [.sample "t" longest, .sample "t" longest] := by
    constructor
    · intro name declared
      simp at declared
    · intro name declared
      obtain rfl : name = "t" := by simpa using declared
      decide
  refine ⟨few, ?_⟩
  rw [← Option.not_isSome_iff_eq_none, isSome_snapshot?_recorded_iff few.samples]
  intro summable
  exact absurd (summable "t" (by decide)) (by decide)

end LoadTest.Metric
