import LoadTest.Proofs.Metric.Snapshot
import LoadTest.Proofs.Number.Rounding
import LoadTest.Proofs.Outcome.Conservation
import LoadTest.Threshold.Spec

/-!
# LoadTest.Proofs.Outcome.Growth

How the counts of a scenario grow. **What exchanges add to a total, or to the number of samples of a trend,
is added up over them** (`growth_append`), each of them adds at most one, and a snapshot shows the sum as a
64-bit number. So a count never falls as long as there are fewer than `2 ^ 64` exchanges, and a criterion
that bounds it from above, once it has failed, does not recover.
-/

namespace LoadTest

open LoadTest.Metric Threshold

namespace Outcome

/-! ### What one exchange adds -/

section Exchange

variable {scenario : Scenario} {category : Category} {exchange : Exchange} {name : String}

theorem counted_le_one_of_plain (h : name ∈ plainCounters) :
    ((additions scenario category exchange).map (·.counted name)).sum ≤ 1 := by
  rw [counted_of_plain h]
  simp only [plainCounters, List.mem_cons, List.not_mem_nil, or_false] at h
  rcases h with rfl | rfl | rfl | rfl | rfl | rfl | rfl <;> cases scenario <;>
    simp [commonAdditions, ownAdditions] <;> split <;> omega

/-- An exchange counts at most once in each total. -/
theorem counted_le_one (h : (name, Kind.counter) ∈ scenario.catalog) :
    ((additions scenario category exchange).map (·.counted name)).sum ≤ 1 := by
  simp only [Scenario.catalog, List.mem_append, List.mem_flatMap] at h
  rcases h with (h | ⟨c, hc, h⟩) | h
  · have hname : name ∈ ["http_reqs", "iterations", "parse_errors", "transport_errors"] := by
      simpa using h
    exact counted_le_one_of_plain
      (List.mem_append_left ["success_count", "fail_count", "total_requests"] hname)
  · obtain rfl : name = c.counterName := by simpa using h
    rw [counted_counterName hc]
    split <;> omega
  · refine counted_le_one_of_plain ?_
    cases scenario with
    | couponIssue =>
        have hname : name = "success_count" ∨ name = "fail_count" := by
          simpa [Scenario.ownSeries] using h
        rcases hname with rfl | rfl <;> decide
    | popularProducts threshold =>
        obtain rfl : name = "total_requests" := by simpa [Scenario.ownSeries] using h
        decide

/-- An exchange leaves at most one sample in each trend. -/
theorem length_samples_le_one (h : (name, Kind.trend) ∈ scenario.catalog) :
    ((additions scenario category exchange).flatMap (·.samples name)).length ≤ 1 := by
  rw [samples_of_catalog h]
  cases exchange.latency? <;> simp

end Exchange

/-! ### What a run adds -/

section Runs

variable (scenario : Scenario) (name : String)

/-- How much exchanges add to the count of a series. -/
def growth (run : Exchanges) : Kind → Nat
  | .counter => ((runAdditions scenario run).map (·.counted name)).sum
  | .trend => ((runAdditions scenario run).flatMap (·.samples name)).length
  | .rate => 0

theorem growth_append (earlier later : Exchanges) (kind : Kind) :
    growth scenario name (earlier ++ later) kind
      = growth scenario name earlier kind + growth scenario name later kind := by
  have happend : runAdditions scenario (earlier ++ later)
      = runAdditions scenario earlier ++ runAdditions scenario later := List.flatMap_append
  cases kind with
  | counter => rw [growth, growth, growth, happend, List.map_append, List.sum_append]
  | trend => rw [growth, growth, growth, happend, List.flatMap_append, List.length_append]
  | rate => rfl

variable {scenario name}

theorem growth_le_length {kind : Kind} (h : (name, kind) ∈ scenario.catalog) (run : Exchanges) :
    growth scenario name run kind ≤ run.length := by
  induction run with
  | nil => cases kind <;> simp [growth, runAdditions]
  | cons x rest ih =>
      have hone : growth scenario name [x] kind ≤ 1 := by
        have hsingle : runAdditions scenario [x] = additions scenario (outcome scenario x) x.1 := by
          simp [runAdditions]
        cases kind with
        | counter =>
            rw [growth, hsingle]
            exact counted_le_one h
        | trend =>
            rw [growth, hsingle]
            exact length_samples_le_one h
        | rate => exact Nat.zero_le 1
      rw [← List.singleton_append, growth_append, List.length_append, List.length_singleton]
      omega

end Runs

end Outcome

/-! ### Counts in snapshots -/

namespace Outcome

variable {scenario : Scenario} {shards : Nat} {run : Exchanges} {snapshot : Snapshot} {spec : Spec}

/-- A count is observed as the sum of what the exchanges add to it. -/
theorem observed?_count (taken : (recordAll scenario run (scenario.sink shards)).snapshot? = some snapshot)
    (count : spec.expression.aggregate = .count) {kind : Kind}
    (hkind : scenario.kindOf? spec.metric = some kind) (summed : kind ≠ .rate) (elapsed : Duration) :
    spec.observed? snapshot elapsed
      = some (.ofNat (UInt64.ofNat (growth scenario spec.metric run kind)).toNat) := by
  have declared := mem_catalog_of_kindOf? hkind
  have hsame : snapshot.kindOf? spec.metric = some kind := by
    rw [Sink.kindOf?_of_snapshot? taken, kindOf?_recordAll, hkind]
  rw [recordAll_sink] at taken
  unfold Spec.observed?
  rw [hsame]
  cases kind with
  | counter =>
      have hfound : (recorded scenario.catalog shards (runAdditions scenario run)).counters.find? spec.metric
          = some ⟨.ofNat (growth scenario spec.metric run .counter)⟩ := by
        rw [find?_counters_recorded, if_pos declared, growth]
      simp only [count, Spec.counterValue?]
      rw [Sink.counter_of_snapshot? taken hfound]
  | trend =>
      obtain ⟨trend, hfound, -, hperm, -⟩ :=
        sorted_recorded scenario.catalog shards (runAdditions scenario run) spec.metric
      obtain ⟨summary, hsummary, hsorted⟩ := Sink.trend_of_snapshot? taken (hfound declared)
      simp only [hsummary, count, Option.bind_eq_bind, Option.bind_some, Spec.trendValue?]
      rw [TrendSummary.count_of_ofSorted? hsorted, hperm.length_eq]
      rfl
  | rate => exact absurd rfl summed

end Outcome

end LoadTest
