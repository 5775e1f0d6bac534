import LoadTest.Proofs.Metric.Totals
import LoadTest.Proofs.Outcome.Classification
import LoadTest.Proofs.Outcome.Conservation

/-!
# LoadTest.Proofs.Outcome.Catalog

The catalog of a scenario against what recording looks up and writes to. **Recording asks for the series of the
catalog, writes to them and to no others** (`needs_exactly_catalog`): a sink is accepted exactly if it has them
all, under their kinds, whatever else it has; what an exchange adds goes to one of them; and none is there for
nothing, since each is written to by some exchange.
-/

namespace LoadTest

open LoadTest.Metric Json

namespace Metric.Sink

/-! ### Series that stay as they are -/

theorem agree_refl (sink : Sink) (series : String × Kind) : sink.Agree sink series := by
  obtain ⟨name, kind⟩ := series
  cases kind <;> exact rfl

theorem Agree.trans {a b c : Sink} {series : String × Kind} (first : a.Agree b series)
    (second : b.Agree c series) : a.Agree c series := by
  obtain ⟨name, kind⟩ := series
  cases kind <;> exact Eq.trans first second

/-- Additions to other series leave a series as it is. -/
theorem agree_addAll {additions : List Addition} {series : String × Kind}
    (others : ∀ addition ∈ additions, series ≠ addition.series) (sink : Sink) :
    (sink.addAll additions).Agree sink series := by
  induction additions generalizing sink with
  | nil => exact sink.agree_refl series
  | cons addition rest ih =>
      obtain ⟨hhead, hrest⟩ := List.forall_mem_cons.mp others
      exact (ih hrest (sink.add addition)).trans (sink.add_agree hhead)

end Metric.Sink

namespace Outcome

variable {scenario : Scenario} {category : Category} {exchange : Exchange} {sink : Sink}
  {series : String × Kind} {name : String}

/-! ### The series that are asked for -/

/-- A new sink has the series that were declared, under their kinds. -/
theorem hasSeries_ofSeries_iff {declared : List (String × Kind)} {shards : Nat} :
    hasSeries (.ofSeries declared shards) series = true ↔ series ∈ declared := by
  obtain ⟨name, kind⟩ := series
  cases kind with
  | counter => by_cases h : (name, .counter) ∈ declared <;> simp [hasSeries, Sink.find?_counters_ofSeries, h]
  | rate => by_cases h : (name, .rate) ∈ declared <;> simp [hasSeries, Sink.find?_rates_ofSeries, h]
  | trend => by_cases h : (name, .trend) ∈ declared <;> simp [hasSeries, Sink.find?_trends_ofSeries, h]

/-- A sink is accepted exactly if it has every series of the catalog. -/
theorem checkSink_eq_ok_iff :
    checkSink scenario sink = .ok () ↔ ∀ series ∈ scenario.catalog, hasSeries sink series = true := by
  have hmissing : missing? scenario sink = none ↔ ∀ series ∈ scenario.catalog, hasSeries sink series = true := by
    simp only [missing?, Option.map_eq_none_iff, List.find?_eq_none, (required_perm_catalog scenario).mem_iff]
    simp
  rw [← hmissing, checkSink]
  split
  · next name h => simp [h]
  · next h => simp [h]

/-- A sink that is refused lacks a series of the catalog, and the error names it. -/
theorem exists_missing_of_checkSink {e : ConfigError} (h : checkSink scenario sink = .error e) :
    ∃ series ∈ scenario.catalog, hasSeries sink series = false ∧ e = .unknownMetric series.1 := by
  unfold checkSink at h
  split at h
  · next name hname =>
    obtain ⟨series, hfound, rfl⟩ := Option.map_eq_some_iff.mp hname
    have hlacks := List.find?_some hfound
    refine ⟨series, (required_perm_catalog scenario).mem_iff.mp (List.mem_of_find?_eq_some hfound), ?_, ?_⟩
    · simpa using hlacks
    · exact (Except.error.inj h).symm
  · cases h

/-! ### The series that are written to -/

theorem eq_of_mem_countIf {addition : Addition} {held : Bool} (h : addition ∈ countIf name held) :
    addition = .count name 1 := by
  unfold countIf at h
  split at h
  · exact List.mem_singleton.mp h
  · cases h

/-- **What an exchange adds goes to the catalog,** whatever the category it is recorded under. -/
theorem series_mem_catalog {addition : Addition} (h : addition ∈ additions scenario category exchange) :
    addition.series ∈ scenario.catalog := by
  simp only [additions, List.mem_append] at h
  rcases h with ((h | h) | h) | h
  · -- the series of the categories
    obtain ⟨other, hother, h⟩ := List.mem_flatMap.mp h
    rcases List.mem_append.mp h with h | h
    · rw [eq_of_mem_countIf h]
      exact mem_catalog_counterName hother
    · rw [List.mem_singleton.mp h]
      exact mem_catalog_rateName hother
  · -- the series that both scenarios have
    simp only [commonAdditions, List.mem_append, List.mem_cons, List.not_mem_nil, or_false] at h
    rcases h with (((rfl | rfl | rfl) | h) | h) | rfl
    · simp [Addition.series, Scenario.catalog]
    · simp [Addition.series, Scenario.catalog]
    · simp [Addition.series, Scenario.catalog]
    · simp [eq_of_mem_countIf h, Addition.series, Scenario.catalog]
    · simp [eq_of_mem_countIf h, Addition.series, Scenario.catalog]
    · simp [Addition.series, Scenario.catalog]
  · -- the trends
    obtain ⟨latency, -, h⟩ := List.mem_flatMap.mp h
    simp only [List.mem_cons, List.not_mem_nil, or_false] at h
    rcases h with rfl | rfl <;> simp [Addition.series, Scenario.catalog]
  · -- the series of one scenario alone
    cases scenario with
    | couponIssue =>
        rcases List.mem_append.mp h with h | h <;>
          simp [eq_of_mem_countIf h, Addition.series, Scenario.catalog, Scenario.ownSeries]
    | popularProducts threshold =>
        simp only [ownAdditions, List.mem_cons, List.not_mem_nil, or_false] at h
        rcases h with rfl | rfl <;> simp [Addition.series, Scenario.catalog, Scenario.ownSeries]

/-- Recording changes nothing beyond the catalog. -/
theorem agree_recordEach (outside : series ∉ scenario.catalog) (records : List (Category × Exchange))
    (sink : Sink) : (recordEach scenario records sink).Agree sink series := by
  induction records generalizing sink with
  | nil => exact sink.agree_refl series
  | cons x rest ih =>
      have hone : (record scenario x.1 x.2 sink).Agree sink series := by
        rw [record_eq_addAll]
        refine Sink.agree_addAll ?_ sink
        intro addition mem heq
        exact outside (heq ▸ series_mem_catalog mem)
      exact (ih (record scenario x.1 x.2 sink)).trans hone

/-- Recording keeps the series that there are. -/
theorem hasSeries_recordEach (records : List (Category × Exchange)) (sink : Sink) :
    hasSeries (recordEach scenario records sink) series = hasSeries sink series := by
  induction records generalizing sink with
  | nil => rfl
  | cons x rest ih =>
      have hone : hasSeries (record scenario x.1 x.2 sink) series = hasSeries sink series := by
        obtain ⟨name, kind⟩ := series
        rw [record_eq_addAll]
        cases kind with
        | counter => simp [hasSeries, Sink.find?_counters_addAll]
        | rate => simp [hasSeries, Sink.find?_rates_addAll]
        | trend => simp [hasSeries, Sink.find?_trends_addAll]
      exact (ih (record scenario x.1 x.2 sink)).trans hone

/-! ### Each series is written to -/

/-- A response without content. -/
def bare (status : Nat) : Response := ⟨status, .zero, []⟩

/-- The record of a coupon that was issued. -/
def couponRecord : Json := ofMembers [("status", ofString "QUEUED")]

theorem written_couponRecord : couponRecord.Written := written_ofMembers (by simp [Written, ofString])

/-- An exchange can do what it was for. -/
theorem exists_success (scenario : Scenario) : ∃ x, outcome scenario x = scenario.success := by
  cases scenario with
  | couponIssue =>
      have hbytes := ofBytes?_answered written_couponRecord
      refine ⟨(.ok (answered couponRecord), ⟨none, 0⟩), (classify_iff_row ..).mpr (.success rfl (.inl ?_))⟩
      exact ⟨couponRecord, ofString "QUEUED", hbytes, ⟨_, rfl, by simp [Scenario.successField]⟩, rfl⟩
  | popularProducts threshold =>
      have hbytes := ofBytes?_answered written_productRecord
      refine ⟨(.ok (answered productRecord), ⟨none, 5⟩), (classify_iff_row ..).mpr (.success rfl (.inl ?_))⟩
      exact ⟨productRecord, ofWord 5, hbytes, ⟨_, rfl, by simp [Scenario.successField]⟩,
        word?_eq_some_iff.mp (word?_ofWord 5)⟩

/-- **Every category is the outcome of some exchange.** -/
theorem exists_outcome (h : category ∈ scenario.categories) : ∃ x, outcome scenario x = category := by
  have hlost : outcome scenario (.error (.connection ""), ⟨none, 0⟩) = .transportError := by
    cases scenario <;> rfl
  have hother : outcome scenario (.ok (bare 500), ⟨none, 0⟩) = .unexpectedStatus := by
    cases scenario <;> rfl
  have hmalformed : outcome scenario (.ok (bare 200), ⟨none, 0⟩) = .parseError := by
    cases scenario <;> rfl
  cases scenario with
  | couponIssue =>
      simp only [Scenario.categories, List.mem_cons, List.not_mem_nil, or_false] at h
      rcases h with rfl | rfl | rfl | rfl | rfl | rfl
      · exact exists_success .couponIssue
      · exact ⟨(.ok (bare 409), ⟨none, 0⟩), rfl⟩
      · exact ⟨(.ok (bare 410), ⟨none, 0⟩), rfl⟩
      · exact ⟨_, hother⟩
      · exact ⟨_, hlost⟩
      · exact ⟨_, hmalformed⟩
  | popularProducts threshold =>
      simp only [Scenario.categories, List.mem_cons, List.not_mem_nil, or_false] at h
      rcases h with rfl | rfl | rfl | rfl
      · exact exists_success (.popularProducts threshold)
      · exact ⟨_, hother⟩
      · exact ⟨_, hlost⟩
      · exact ⟨_, hmalformed⟩

/-- Every counter of the catalog counts some exchange. -/
theorem exists_counted (h : (name, Kind.counter) ∈ scenario.catalog) :
    ∃ x, ((additions scenario (outcome scenario x) x.1).map (·.counted name)).sum = 1 := by
  have hparse : ∃ x, outcome scenario x = .parseError :=
    exists_outcome (by cases scenario <;> simp [Scenario.categories])
  have htransport : ∃ x, outcome scenario x = .transportError :=
    exists_outcome (by cases scenario <;> simp [Scenario.categories])
  simp only [Scenario.catalog, List.mem_append, List.mem_flatMap] at h
  rcases h with (h | ⟨c, hc, h⟩) | h
  · have hname : name = "http_reqs" ∨ name = "iterations" ∨ name = "parse_errors"
        ∨ name = "transport_errors" := by simpa using h
    rcases hname with rfl | rfl | rfl | rfl
    · exact hparse.imp fun x _ => counted_httpReqs
    · exact hparse.imp fun x _ => counted_iterations
    · exact hparse.imp fun x hx => by rw [counted_parseErrors, if_pos hx]
    · exact htransport.imp fun x hx => by rw [counted_transportErrors, if_pos hx]
  · obtain rfl : name = c.counterName := by simpa using h
    obtain ⟨x, hx⟩ := exists_outcome hc
    exact ⟨x, by rw [counted_counterName hc, if_pos hx.symm]⟩
  · cases scenario with
    | couponIssue =>
        have hname : name = "success_count" ∨ name = "fail_count" := by
          simpa [Scenario.ownSeries] using h
        rcases hname with rfl | rfl
        · obtain ⟨x, hx⟩ := exists_success .couponIssue
          change outcome .couponIssue x = .queued at hx
          exact ⟨x, by rw [counted_successCount, if_pos hx]⟩
        · obtain ⟨x, hx⟩ := hparse
          exact ⟨x, by rw [counted_failCount, hx]; rfl⟩
    | popularProducts threshold =>
        obtain rfl : name = "total_requests" := by simpa [Scenario.ownSeries] using h
        exact hparse.imp fun x _ => counted_totalRequests threshold

/-- **No series of the catalog is there for nothing:** some exchange changes it, whatever it holds. -/
theorem exists_change (h : series ∈ scenario.catalog) : ∃ x : Exchange × Parameters, ∀ sink,
    hasSeries sink series = true → ¬ (record scenario (outcome scenario x) x.1 sink).Agree sink series := by
  obtain ⟨name, kind⟩ := series
  have succ_ne (word : UInt64) : word + 1 ≠ word := by simp
  cases kind with
  | counter =>
      obtain ⟨x, hx⟩ := exists_counted h
      refine ⟨x, fun sink has => ?_⟩
      obtain ⟨counter, hfound⟩ := Option.isSome_iff_exists.mp has
      change sink.counters.find? name = some counter at hfound
      show ¬ _ = sink.counters.find? name
      rw [record_eq_addAll, Sink.find?_counters_addAll, hfound, hx]
      intro heq
      exact succ_ne counter.value (congrArg Counter.value (Option.some.inj heq))
  | rate =>
      obtain ⟨x, -⟩ := exists_success scenario
      refine ⟨x, fun sink has => ?_⟩
      obtain ⟨rate, hfound⟩ := Option.isSome_iff_exists.mp has
      change sink.rates.find? name = some rate at hfound
      show ¬ _ = sink.rates.find? name
      rw [record_eq_addAll, Sink.find?_rates_addAll, hfound, observed_of_catalog h]
      intro heq
      exact succ_ne rate.observed (congrArg Rate.observed (Option.some.inj heq))
  | trend =>
      refine ⟨(.ok (bare 200), ⟨none, 0⟩), fun sink has => ?_⟩
      obtain ⟨trend, hfound⟩ := Option.isSome_iff_exists.mp has
      change sink.trends.find? name = some trend at hfound
      show ¬ _ = sink.trends.find? name
      rw [record_eq_addAll, Sink.find?_trends_addAll, hfound, samples_of_catalog h]
      intro heq
      exact succ_ne trend.turns (congrArg Trend.turns (Option.some.inj heq))

/-- **Recording needs exactly the catalog.** A sink of any declared series is accepted exactly if every series of
the catalog is declared, by its name and kind; otherwise the error names one that is not. What an accepted sink
has beyond the catalog stays as it is, whatever is recorded, and of the catalog itself each series is changed by
one exchange more. -/
theorem needs_exactly_catalog (scenario : Scenario) (declared : List (String × Kind)) (shards : Nat) :
    (checkSink scenario (.ofSeries declared shards) = .ok () ↔ ∀ series ∈ scenario.catalog, series ∈ declared)
      ∧ (∀ e, checkSink scenario (.ofSeries declared shards) = .error e →
        ∃ series ∈ scenario.catalog, series ∉ declared ∧ e = .unknownMetric series.1)
      ∧ (checkSink scenario (.ofSeries declared shards) = .ok () → ∀ records sink,
        recordEach scenario records (.ofSeries declared shards) = sink →
        (∀ series, series ∉ scenario.catalog → sink.Agree (.ofSeries declared shards) series)
        ∧ ∀ series ∈ scenario.catalog, ∃ x : Exchange × Parameters,
          ¬ (record scenario (outcome scenario x) x.1 sink).Agree sink series) := by
  refine ⟨?_, fun e refused => ?_, ?_⟩
  · simp only [checkSink_eq_ok_iff, hasSeries_ofSeries_iff]
  · obtain ⟨series, mem, lacks, he⟩ := exists_missing_of_checkSink refused
    refine ⟨series, mem, fun has => ?_, he⟩
    rw [hasSeries_ofSeries_iff.mpr has] at lacks
    cases lacks
  · intro accepted records sink hsink
    subst hsink
    refine ⟨fun series outside => agree_recordEach outside records _, fun series mem => ?_⟩
    obtain ⟨x, hchange⟩ := exists_change mem
    refine ⟨x, hchange _ ?_⟩
    rw [hasSeries_recordEach]
    exact checkSink_eq_ok_iff.mp accepted series mem

/-- The catalog of coupons, each of its names also under another kind. -/
def underTwoKinds : List (String × Kind) :=
  (Scenario.catalog .couponIssue).flatMap fun series =>
    [series, (series.1, if series.2 = .trend then .rate else .trend)]

/-- A sink may declare more than the catalog, and the trend of a counter's name stays empty. -/
theorem namesake_stays_empty : checkSink .couponIssue (.ofSeries underTwoKinds 2) = .ok ()
    ∧ (recordEach .couponIssue [(.queued, .ok (bare 200))] (.ofSeries underTwoKinds 2)).Agree
      (.ofSeries underTwoKinds 2) ("http_reqs", .trend) := by
  obtain ⟨accepted_iff, -, keeps⟩ := needs_exactly_catalog .couponIssue underTwoKinds 2
  have accepted := accepted_iff.mpr fun series mem =>
    List.mem_flatMap.mpr ⟨series, mem, List.mem_cons_self⟩
  have outside : ("http_reqs", Kind.trend) ∉ Scenario.catalog .couponIssue := by decide
  exact ⟨accepted, (keeps accepted _ _ rfl).1 _ outside⟩

end Outcome

end LoadTest
