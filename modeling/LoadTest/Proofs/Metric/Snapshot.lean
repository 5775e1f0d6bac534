import LoadTest.Metric.Sink
import LoadTest.Proofs.Table

/-!
# LoadTest.Proofs.Metric.Snapshot

A snapshot of a sink. **It has the series of the sink and no other,** each under its own name and with
what it held.
-/

namespace LoadTest.Metric

/-! ### Summaries -/

namespace TrendSummary

variable {sorted : List Duration} {summary : TrendSummary}

/-- There is a summary if the samples have a sum and the four percentiles that it names. -/
theorem eq_of_ofSorted? (h : ofSorted? sorted = some summary) :
    ∃ total med p90 p95 p99, Duration.sum? sorted = some total
      ∧ Metric.percentile? sorted 50 = some med ∧ Metric.percentile? sorted 90 = some p90
      ∧ Metric.percentile? sorted 95 = some p95 ∧ Metric.percentile? sorted 99 = some p99
      ∧ summary = {
        count := UInt64.ofNat sorted.length
        avg := if 0 < sorted.length then total.toMillis / Binary64.ofNat sorted.length else 0
        min := (sorted.head?.map Duration.toMillis).getD 0
        med := med.toMillis
        max := (sorted.getLast?.map Duration.toMillis).getD 0
        p90 := p90.toMillis
        p95 := p95.toMillis
        p99 := p99.toMillis
        sorted } := by
  unfold ofSorted? at h
  obtain ⟨total, htotal, h⟩ := Option.bind_eq_some_iff.mp h
  obtain ⟨med, hmed, h⟩ := Option.bind_eq_some_iff.mp h
  obtain ⟨p90, hp90, h⟩ := Option.bind_eq_some_iff.mp h
  obtain ⟨p95, hp95, h⟩ := Option.bind_eq_some_iff.mp h
  obtain ⟨p99, hp99, h⟩ := Option.bind_eq_some_iff.mp h
  exact ⟨total, med, p90, p95, p99, htotal, hmed, hp90, hp95, hp99, (Option.some.inj h).symm⟩

theorem count_of_ofSorted? (h : ofSorted? sorted = some summary) :
    summary.count = .ofNat sorted.length := by
  obtain ⟨_, _, _, _, _, -, -, -, -, -, rfl⟩ := eq_of_ofSorted? h
  rfl

theorem sorted_of_ofSorted? (h : ofSorted? sorted = some summary) : summary.sorted = sorted := by
  obtain ⟨_, _, _, _, _, -, -, -, -, -, rfl⟩ := eq_of_ofSorted? h
  rfl

end TrendSummary

/-! ### Snapshots -/

namespace Sink

variable {sink : Sink} {snapshot : Snapshot}

theorem counters_of_snapshot? (h : sink.snapshot? = some snapshot) :
    snapshot.counters = sink.counters.map (·.value) := by
  obtain ⟨trends, -, hsnapshot⟩ := Option.bind_eq_some_iff.mp h
  cases hsnapshot
  rfl

theorem rates_of_snapshot? (h : sink.snapshot? = some snapshot) :
    snapshot.rates = sink.rates.map (·.summary) := by
  obtain ⟨trends, -, hsnapshot⟩ := Option.bind_eq_some_iff.mp h
  cases hsnapshot
  rfl

theorem keys_trends_of_snapshot? (h : sink.snapshot? = some snapshot) :
    snapshot.trends.keys = sink.trends.keys := by
  obtain ⟨trends, htrends, hsnapshot⟩ := Option.bind_eq_some_iff.mp h
  cases hsnapshot
  exact Table.keys_of_mapM? htrends

theorem exists_trend_of_kindOf? {name : String} (h : sink.kindOf? name = some .trend) :
    ∃ trend, sink.trends.find? name = some trend := by
  unfold kindOf? at h
  split at h
  · simp at h
  · split at h
    · simp at h
    · split at h
      · next hcontains => exact Option.isSome_iff_exists.mp hcontains
      · simp at h

/-- The total of a counter is what the counter held. -/
theorem counter_of_snapshot? (h : sink.snapshot? = some snapshot) {name : String} {counter : Counter}
    (found : sink.counters.find? name = some counter) : snapshot.counter name = counter.value := by
  rw [Snapshot.counter, counters_of_snapshot? h, Table.find?_map, found]
  rfl

/-- The summary of a trend is that of the samples it held. -/
theorem trend_of_snapshot? (h : sink.snapshot? = some snapshot) {name : String} {trend : Trend}
    (found : sink.trends.find? name = some trend) :
    ∃ summary, snapshot.trends.find? name = some summary
      ∧ TrendSummary.ofSorted? trend.sorted = some summary := by
  obtain ⟨trends, htrends, hsnapshot⟩ := Option.bind_eq_some_iff.mp h
  cases hsnapshot
  have hfound := Table.find?_of_mapM? htrends name
  rw [found, Option.bind_some] at hfound
  cases hsummary : TrendSummary.ofSorted? trend.sorted with
  | some summary => exact ⟨summary, hfound.trans hsummary, rfl⟩
  | none =>
      -- Then one of the summaries would be missing, and there would be no snapshot.
      have hkeys : (trends.find? name).isSome = true ↔ name ∈ trends.keys := Table.isSome_find?_iff
      rw [hfound, hsummary, Table.keys_of_mapM? htrends, ← Table.isSome_find?_iff, found] at hkeys
      exact absurd (hkeys.mpr rfl) Bool.noConfusion

/-- A name is of the same kind in a sink and in its snapshot. -/
theorem kindOf?_of_snapshot? (h : sink.snapshot? = some snapshot) (name : String) :
    snapshot.kindOf? name = sink.kindOf? name := by
  have hcounters : snapshot.counters.contains name = sink.counters.contains name := by
    rw [counters_of_snapshot? h]
    simp
  have hrates : snapshot.rates.contains name = sink.rates.contains name := by
    rw [rates_of_snapshot? h]
    simp
  have htrends : snapshot.trends.contains name = sink.trends.contains name := by
    rw [Bool.eq_iff_iff, Table.contains_eq, Table.contains_eq, Table.isSome_find?_iff,
      Table.isSome_find?_iff, keys_trends_of_snapshot? h]
  simp only [Snapshot.kindOf?, kindOf?, hcounters, hrates, htrends]

end Sink

end LoadTest.Metric
