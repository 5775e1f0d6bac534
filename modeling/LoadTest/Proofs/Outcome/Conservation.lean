import LoadTest.Proofs.Metric.Totals
import LoadTest.Proofs.Outcome.Additions

/-!
# LoadTest.Proofs.Outcome.Conservation

The series of a scenario after any run of exchanges. **They all tell of the same exchanges:** the totals
of the categories add up to their number, every rate is a share of that number, and both trends hold the
latencies of all responses. Totals are 64-bit numbers and wrap as such, so each is the machine word of
the natural number that it stands for.
-/

namespace LoadTest.Outcome

open LoadTest.Metric

/-! ### Outcomes -/

/-- Exchanges in order, with what was asked for in each. -/
abbrev Exchanges := List (Exchange × Parameters)

/-- The outcome of one of the exchanges. -/
def outcome (scenario : Scenario) (x : Exchange × Parameters) : Category := classify scenario x.1 x.2

/-- An exchange has one of the outcomes of its scenario. -/
theorem classify_mem_categories (scenario : Scenario) (exchange : Exchange) (parameters : Parameters) :
    classify scenario exchange parameters ∈ scenario.categories := by
  cases exchange with
  | error _ => cases scenario <;> simp [classify, Scenario.categories]
  | ok response =>
      cases scenario with
      | couponIssue =>
          simp only [classify]
          split
          · split <;> simp [Scenario.categories]
          all_goals simp [Scenario.categories]
      | popularProducts threshold =>
          simp only [classify]
          split
          · split <;> simp [Scenario.categories]
          · simp [Scenario.categories]

/-- Nothing but a missing response is a transport error. -/
theorem classify_eq_transportError_iff {scenario : Scenario} {exchange : Exchange}
    {parameters : Parameters} :
    classify scenario exchange parameters = .transportError ↔ exchange.latency? = none := by
  cases exchange with
  | error _ => simp [classify, Exchange.latency?]
  | ok response =>
      simp only [Exchange.latency?, reduceCtorEq, iff_false]
      cases scenario with
      | couponIssue =>
          simp only [classify]
          split
          · split <;> simp
          all_goals simp
      | popularProducts threshold =>
          simp only [classify]
          split
          · split <;> simp
          · simp

/-! ### Runs of exchanges -/

section Runs

variable (scenario : Scenario) (run : Exchanges)

/-- Records exchanges one after the other, each with its outcome. -/
def recordAll (sink : Sink) : Sink :=
  run.foldl (fun sink x => record scenario (outcome scenario x) x.1 sink) sink

/-- How many of the exchanges had an outcome. -/
def tally (category : Category) : Nat := run.countP fun x => outcome scenario x = category

/-- The latencies of the responses among the exchanges. -/
def latencies (run : Exchanges) : List Duration := run.filterMap (·.1.latency?)

/-- Whether no response arrived. -/
def isLost (x : Exchange × Parameters) : Bool := x.1.latency?.isNone

/-- Whether a response arrived with the status of an error. -/
def isRefused (x : Exchange × Parameters) : Bool :=
  match x.1 with
  | .ok response => decide (400 ≤ response.status)
  | .error _ => false

/-- All that recording the exchanges adds. -/
def runAdditions : List Addition := run.flatMap fun x => additions scenario (outcome scenario x) x.1

theorem runAdditions_cons (x : Exchange × Parameters) : runAdditions scenario (x :: run)
    = additions scenario (outcome scenario x) x.1 ++ runAdditions scenario run := rfl

theorem recordAll_eq_addAll (sink : Sink) :
    recordAll scenario run sink = sink.addAll (runAdditions scenario run) := by
  induction run generalizing sink with
  | nil => rfl
  | cons x rest ih =>
      calc recordAll scenario (x :: rest) sink
          _ = recordAll scenario rest (record scenario (outcome scenario x) x.1 sink) := rfl
          _ = (sink.addAll (additions scenario (outcome scenario x) x.1)).addAll
                (runAdditions scenario rest) := by rw [ih, record_eq_addAll]
          _ = sink.addAll (runAdditions scenario (x :: rest)) := by
                rw [← Sink.addAll_append, runAdditions_cons]

/-- The sink of a scenario has what the additions of the exchanges come to. -/
theorem recordAll_sink (shards : Nat) : recordAll scenario run (scenario.sink shards)
    = recorded scenario.catalog shards (runAdditions scenario run) :=
  recordAll_eq_addAll scenario run (scenario.sink shards)

/-- What is added once by some of the exchanges is added as often as there are such exchanges. -/
theorem sum_runAdditions {f : Addition → Nat} {p : Exchange × Parameters → Bool}
    (h : ∀ x, ((additions scenario (outcome scenario x) x.1).map f).sum = if p x then 1 else 0) :
    ((runAdditions scenario run).map f).sum = run.countP p := by
  induction run with
  | nil => rfl
  | cons x rest ih =>
      rw [runAdditions_cons, List.map_append, List.sum_append, h, ih, List.countP_cons, Nat.add_comm]

/-- All rates of the catalog have the same total. -/
theorem observed_runAdditions {name : String} (declared : (name, Kind.rate) ∈ scenario.catalog) :
    ((runAdditions scenario run).map (·.observed name)).sum = run.length := by
  rw [sum_runAdditions scenario run (p := fun _ => true) fun x => by
    simpa using observed_of_catalog declared, List.countP_true]

/-- All trends of the catalog have the same samples. -/
theorem samplesFor_runAdditions {name : String} (declared : (name, Kind.trend) ∈ scenario.catalog) :
    samplesFor name (runAdditions scenario run) = latencies run := by
  induction run with
  | nil => rfl
  | cons x rest ih =>
      rw [samplesFor] at ih ⊢
      rw [runAdditions_cons, List.flatMap_append, samples_of_catalog declared, ih, latencies, latencies,
        List.filterMap_cons]
      cases x.1.latency? <;> rfl

/-- A counter of the catalog that some of the exchanges count in. -/
theorem find?_counter (shards : Nat) {name : String} (declared : (name, Kind.counter) ∈ scenario.catalog)
    {p : Exchange × Parameters → Bool}
    (h : ∀ x, ((additions scenario (outcome scenario x) x.1).map (·.counted name)).sum
      = if p x then 1 else 0) :
    (recordAll scenario run (scenario.sink shards)).counters.find? name
      = some ⟨.ofNat (run.countP p)⟩ := by
  rw [recordAll_sink, find?_counters_recorded, if_pos declared, sum_runAdditions scenario run h]

/-- A counter of the catalog that every exchange counts in. -/
theorem find?_counter_of_all (shards : Nat) {name : String}
    (declared : (name, Kind.counter) ∈ scenario.catalog)
    (h : ∀ x, ((additions scenario (outcome scenario x) x.1).map (·.counted name)).sum = 1) :
    (recordAll scenario run (scenario.sink shards)).counters.find? name = some ⟨.ofNat run.length⟩ := by
  rw [find?_counter scenario run shards declared (p := fun _ => true) fun x => by simpa using h x,
    List.countP_true]

/-- A rate of the catalog that holds for some of the exchanges. -/
theorem find?_rate (shards : Nat) {name : String} (declared : (name, Kind.rate) ∈ scenario.catalog)
    {p : Exchange × Parameters → Bool}
    (h : ∀ x, ((additions scenario (outcome scenario x) x.1).map (·.hits name)).sum
      = if p x then 1 else 0) :
    (recordAll scenario run (scenario.sink shards)).rates.find? name
      = some ⟨.ofNat (run.countP p), .ofNat run.length⟩ := by
  rw [recordAll_sink, find?_rates_recorded, if_pos declared, sum_runAdditions scenario run h,
    observed_runAdditions scenario run declared]

/-- A trend of the catalog has the latency of every response. -/
theorem find?_trend (shards : Nat) {name : String} (declared : (name, Kind.trend) ∈ scenario.catalog) :
    ∃ trend, (recordAll scenario run (scenario.sink shards)).trends.find? name = some trend
      ∧ trend.samples.Perm (latencies run) := by
  rw [recordAll_sink, find?_trends_recorded, if_pos declared, samplesFor_runAdditions scenario run declared]
  exact ⟨_, rfl, Trend.samples_foldl_add_ofShards shards (latencies run)⟩

/-- Every rate there is has one observation of each exchange, and no more hits than that. -/
theorem rate_of_find? (shards : Nat) {name : String} {rate : Rate}
    (h : (recordAll scenario run (scenario.sink shards)).rates.find? name = some rate) :
    ∃ hits, hits ≤ run.length ∧ rate = ⟨.ofNat hits, .ofNat run.length⟩ := by
  rw [recordAll_sink, find?_rates_recorded] at h
  by_cases declared : (name, Kind.rate) ∈ scenario.catalog
  · have hobserved := observed_runAdditions scenario run declared
    have hle := Addition.sum_hits_le name (runAdditions scenario run)
    rw [if_pos declared, hobserved] at h
    exact ⟨_, hobserved ▸ hle, (Option.some.inj h).symm⟩
  · simp [declared] at h

/-! ### Counts of exchanges -/

theorem sum_indicator (categories : List Category) (category : Category) :
    (categories.map fun c => if category = c then 1 else 0).sum = categories.count category := by
  induction categories with
  | nil => rfl
  | cons c rest ih =>
      rw [List.map_cons, List.sum_cons, ih, List.count_cons]
      by_cases h : category = c
      · simp [h, Nat.add_comm]
      · simp [h, Ne.symm h]

theorem sum_tally : (scenario.categories.map fun c => tally scenario run c).sum = run.length := by
  induction run with
  | nil => simp [tally]
  | cons x rest ih =>
      have hone : (scenario.categories.map fun c => if outcome scenario x = c then 1 else 0).sum = 1 := by
        rw [sum_indicator, outcome, count_categories (classify_mem_categories scenario x.1 x.2)]
      calc (scenario.categories.map fun c => tally scenario (x :: rest) c).sum
          _ = (scenario.categories.map fun c =>
                tally scenario rest c + if outcome scenario x = c then 1 else 0).sum := by
                simp [tally, List.countP_cons]
          _ = rest.length + 1 := by rw [List.sum_map_add, ih, hone]

theorem countP_isError :
    run.countP (fun x => (outcome scenario x).isError)
      = tally scenario run .unexpectedStatus + tally scenario run .transportError
        + tally scenario run .parseError := by
  induction run with
  | nil => rfl
  | cons x rest ih =>
      simp only [tally, List.countP_cons] at ih ⊢
      rw [ih]
      cases outcome scenario x <;> simp [Category.isError] <;> omega

theorem countP_failed :
    run.countP (fun x => x.1.failed) = run.countP isLost + run.countP isRefused := by
  induction run with
  | nil => rfl
  | cons x rest ih =>
      simp only [List.countP_cons]
      rw [ih]
      rcases x with ⟨_ | response, parameters⟩
      · simp [isLost, isRefused, Exchange.failed, Exchange.latency?]
        omega
      · simp [isLost, isRefused, Exchange.failed, Exchange.latency?, Nat.add_assoc]

theorem tally_transportError : tally scenario run .transportError = run.countP isLost := by
  refine List.countP_congr fun x _ => ?_
  simp [outcome, classify_eq_transportError_iff, isLost]

theorem length_latencies : (latencies run).length + tally scenario run .transportError = run.length := by
  rw [tally_transportError, latencies, List.length_filterMap_eq_countP,
    List.length_eq_countP_add_countP (p := fun x => x.1.latency?.isSome) (l := run)]
  congr 1
  refine List.countP_congr fun x _ => ?_
  simp [isLost]

end Runs

/-! ### Runs under any categories -/

/-- Records exchanges one after the other, each under a given category. -/
def recordEach (scenario : Scenario) (records : List (Category × Exchange)) (sink : Sink) : Sink :=
  records.foldl (fun sink x => record scenario x.1 x.2 sink) sink

theorem kindOf?_recordEach (scenario : Scenario) (records : List (Category × Exchange)) (sink : Sink)
    (name : String) : (recordEach scenario records sink).kindOf? name = sink.kindOf? name := by
  induction records generalizing sink with
  | nil => rfl
  | cons x rest ih =>
      calc (recordEach scenario (x :: rest) sink).kindOf? name
          _ = (record scenario x.1 x.2 sink).kindOf? name := ih _
          _ = sink.kindOf? name := by rw [record_eq_addAll, Sink.kindOf?_addAll]

theorem recordAll_eq_recordEach (scenario : Scenario) (run : Exchanges) (sink : Sink) :
    recordAll scenario run sink
      = recordEach scenario (run.map fun x => (outcome scenario x, x.1)) sink := by
  rw [recordAll, recordEach, List.foldl_map]

/-! ### The sink of a scenario -/

/-- The series that recording needs are those of the catalog, in another order. -/
theorem required_perm_catalog (scenario : Scenario) : (required scenario).Perm scenario.catalog := by
  let categories := scenario.categories.flatMap fun c =>
    [(c.counterName, Kind.counter), (c.rateName, Kind.rate)]
  let common : List (String × Kind) :=
    [("http_reqs", .counter), ("iterations", .counter), ("parse_errors", .counter),
      ("transport_errors", .counter), ("http_req_failed", .rate), ("errors", .rate),
      ("http_req_duration", .trend), (scenario.trendName, .trend)]
  have hrequired : required scenario = (categories ++ scenario.ownSeries) ++ common := by
    cases scenario <;> rfl
  calc required scenario
      _ = (categories ++ scenario.ownSeries) ++ common := hrequired
      _ |>.Perm (common ++ (categories ++ scenario.ownSeries)) := List.perm_append_comm
      _ |>.Perm scenario.catalog := .of_eq (List.append_assoc ..).symm

theorem hasSeries_sink (scenario : Scenario) (shards : Nat) {series : String × Kind}
    (h : series ∈ scenario.catalog) : hasSeries (scenario.sink shards) series := by
  obtain ⟨name, kind⟩ := series
  cases kind with
  | counter => simp [hasSeries, Scenario.sink, Sink.find?_counters_ofSeries, h]
  | rate => simp [hasSeries, Scenario.sink, Sink.find?_rates_ofSeries, h]
  | trend => simp [hasSeries, Scenario.sink, Sink.find?_trends_ofSeries, h]

/-- The sink of a scenario lacks no series that recording writes to. -/
theorem checkSink_sink (scenario : Scenario) (shards : Nat) :
    checkSink scenario (scenario.sink shards) = .ok () := by
  have hnone : missing? scenario (scenario.sink shards) = none := by
    unfold missing?
    rw [Option.map_eq_none_iff, List.find?_eq_none]
    intro series hmem
    have hhas := hasSeries_sink scenario shards ((required_perm_catalog scenario).mem_iff.mp hmem)
    simp [hhas]
  simp [checkSink, hnone]

/-- No series of the catalog hides another. -/
theorem kindOf?_of_mem_catalog {scenario : Scenario} {series : String × Kind}
    (h : series ∈ scenario.catalog) : scenario.kindOf? series.1 = some series.2 := by
  cases scenario with
  | couponIssue =>
      have hall : ∀ s ∈ Scenario.catalog .couponIssue,
        (Scenario.catalog .couponIssue).lookup s.1 = some s.2 := by decide +kernel
      exact hall series h
  | popularProducts threshold =>
      -- The catalog is the same for every threshold.
      have hall : ∀ s ∈ Scenario.catalog (.popularProducts .zero),
        (Scenario.catalog (.popularProducts .zero)).lookup s.1 = some s.2 := by decide +kernel
      exact hall series h

theorem mem_catalog_of_kindOf? {scenario : Scenario} {name : String} {kind : Kind}
    (h : scenario.kindOf? name = some kind) : (name, kind) ∈ scenario.catalog := by
  obtain ⟨before, after, hsplit, -⟩ := List.lookup_eq_some_iff.mp h
  rw [hsplit]
  simp

/-- A name is of the same kind in the sink of a scenario and in its catalog. -/
theorem kindOf?_sink (scenario : Scenario) (shards : Nat) (name : String) :
    (scenario.sink shards).kindOf? name = scenario.kindOf? name := by
  have hmem : ∀ kind, (name, kind) ∈ scenario.catalog ↔ scenario.kindOf? name = some kind := fun kind =>
    ⟨kindOf?_of_mem_catalog, mem_catalog_of_kindOf?⟩
  have hcounters : (scenario.sink shards).counters.contains name
      = decide (scenario.kindOf? name = some .counter) := by
    by_cases h : scenario.kindOf? name = some .counter <;>
      simp [Scenario.sink, Sink.find?_counters_ofSeries, hmem, h]
  have hrates : (scenario.sink shards).rates.contains name
      = decide (scenario.kindOf? name = some .rate) := by
    by_cases h : scenario.kindOf? name = some .rate <;>
      simp [Scenario.sink, Sink.find?_rates_ofSeries, hmem, h]
  have htrends : (scenario.sink shards).trends.contains name
      = decide (scenario.kindOf? name = some .trend) := by
    by_cases h : scenario.kindOf? name = some .trend <;>
      simp [Scenario.sink, Sink.find?_trends_ofSeries, hmem, h]
  rw [Sink.kindOf?, hcounters, hrates, htrends]
  cases scenario.kindOf? name with
  | none => rfl
  | some kind => cases kind <;> rfl

/-- Recording exchanges leaves every series in the sink of a scenario, of the kind it has in the
catalog. -/
theorem kindOf?_recordAll (scenario : Scenario) (shards : Nat) (run : Exchanges) (name : String) :
    (recordAll scenario run (scenario.sink shards)).kindOf? name = scenario.kindOf? name := by
  rw [recordAll_eq_addAll, Sink.kindOf?_addAll, kindOf?_sink]

/-! ### Conservation -/

/-- **A sink agrees with the exchanges that were recorded in it.** -/
structure Agrees (scenario : Scenario) (run : Exchanges) (sink : Sink) : Prop where
  httpReqs : sink.counters.find? "http_reqs" = some ⟨.ofNat run.length⟩
  iterations : sink.counters.find? "iterations" = some ⟨.ofNat run.length⟩
  /-- The counter of each category has its exchanges. -/
  totals : ∀ c ∈ scenario.categories,
    sink.counters.find? c.counterName = some ⟨.ofNat (tally scenario run c)⟩
  /-- No exchange is missing from the categories, and none is in two of them. -/
  sum_totals : (scenario.categories.map fun c => tally scenario run c).sum = run.length
  /-- The rate of each category has as many hits as its counter counts, of all exchanges. -/
  responses : ∀ c ∈ scenario.categories,
    sink.rates.find? c.rateName = some ⟨.ofNat (tally scenario run c), .ofNat run.length⟩
  errors : sink.rates.find? "errors" = some
    ⟨.ofNat (tally scenario run .unexpectedStatus + tally scenario run .transportError
        + tally scenario run .parseError), .ofNat run.length⟩
  parseErrors : sink.counters.find? "parse_errors" = some ⟨.ofNat (tally scenario run .parseError)⟩
  transportErrors :
    sink.counters.find? "transport_errors" = some ⟨.ofNat (tally scenario run .transportError)⟩
  failed : sink.rates.find? "http_req_failed" = some
    ⟨.ofNat (run.countP isLost + run.countP isRefused), .ofNat run.length⟩
  /-- Both trends have the latencies of the responses, one for each exchange without transport error. -/
  trends : ∃ general own, sink.trends.find? "http_req_duration" = some general
    ∧ sink.trends.find? scenario.trendName = some own
    ∧ general.samples.Perm (latencies run) ∧ own.samples.Perm (latencies run)
    ∧ (latencies run).length + tally scenario run .transportError = run.length
  /-- What a scenario has of its own: successes and failures, or requests and estimated cache hits. -/
  own : match scenario with
    | .couponIssue => ∃ others, tally scenario run .queued + others = run.length
        ∧ sink.counters.find? "success_count" = some ⟨.ofNat (tally scenario run .queued)⟩
        ∧ sink.counters.find? "fail_count" = some ⟨.ofNat others⟩
    | .popularProducts threshold =>
        sink.counters.find? "total_requests" = some ⟨.ofNat run.length⟩
        ∧ sink.rates.find? "cache_hit_rate_estimated" = some
            ⟨.ofNat (run.countP fun x => isFaster threshold x.1), .ofNat run.length⟩
  /-- As long as 64 bits hold the number of exchanges, every rate is a share of exactly that number. -/
  shares : run.length < UInt64.size → ∀ name rate, sink.rates.find? name = some rate →
    rate.total.toNat = run.length ∧ rate.hits.toNat ≤ run.length

/-- A rate with no more hits than observations has the latter as its total, if they are few enough. -/
theorem toNat_total {hits observed : Nat} (h : hits ≤ observed) (few : observed < UInt64.size) :
    (⟨.ofNat hits, .ofNat observed⟩ : Rate).total.toNat = observed
      ∧ (UInt64.ofNat hits).toNat ≤ observed := by
  have hobserved : (UInt64.ofNat observed).toNat = observed := UInt64.toNat_ofNat_of_lt few
  have hhits : (UInt64.ofNat hits).toNat = hits :=
    UInt64.toNat_ofNat_of_lt (Nat.lt_of_le_of_lt h few)
  have hle : UInt64.ofNat hits ≤ UInt64.ofNat observed := by
    rw [UInt64.le_iff_toNat_le, hobserved, hhits]
    exact h
  refine ⟨?_, hhits.symm ▸ h⟩
  -- A rate reads its total as the greater of its two words.
  change (if UInt64.ofNat observed ≤ UInt64.ofNat hits then UInt64.ofNat hits
    else UInt64.ofNat observed).toNat = observed
  split
  · next hge => rw [UInt64.le_antisymm hle hge, hobserved]
  · exact hobserved

theorem mem_catalog_counterName {scenario : Scenario} {c : Category} (h : c ∈ scenario.categories) :
    (c.counterName, Kind.counter) ∈ scenario.catalog := by
  simp only [Scenario.catalog, List.mem_append, List.mem_flatMap]
  exact .inl (.inr ⟨c, h, by simp⟩)

theorem mem_catalog_rateName {scenario : Scenario} {c : Category} (h : c ∈ scenario.categories) :
    (c.rateName, Kind.rate) ∈ scenario.catalog := by
  simp only [Scenario.catalog, List.mem_append, List.mem_flatMap]
  exact .inl (.inr ⟨c, h, by simp⟩)

/-- Recording any exchanges with their outcomes keeps the sink of a scenario in agreement with them. -/
theorem agrees_recordAll (scenario : Scenario) (shards : Nat) (run : Exchanges) :
    Agrees scenario run (recordAll scenario run (scenario.sink shards)) where
  httpReqs := find?_counter_of_all scenario run shards (by simp [Scenario.catalog]) fun x =>
    counted_httpReqs
  iterations := find?_counter_of_all scenario run shards (by simp [Scenario.catalog]) fun x =>
    counted_iterations
  totals c hc := find?_counter scenario run shards (mem_catalog_counterName hc) fun x => by
    simpa [eq_comm] using counted_counterName hc
  sum_totals := sum_tally scenario run
  responses c hc := find?_rate scenario run shards (mem_catalog_rateName hc) fun x => by
    simpa [eq_comm] using hits_rateName hc
  errors := by
    rw [← countP_isError]
    exact find?_rate scenario run shards (by simp [Scenario.catalog]) fun x => hits_errors
  parseErrors := find?_counter scenario run shards (by simp [Scenario.catalog]) fun x => by
    simpa using counted_parseErrors
  transportErrors := find?_counter scenario run shards (by simp [Scenario.catalog]) fun x => by
    simpa using counted_transportErrors
  failed := by
    rw [← countP_failed]
    exact find?_rate scenario run shards (by simp [Scenario.catalog]) fun x => hits_httpReqFailed
  trends := by
    have declared : ("http_req_duration", Kind.trend) ∈ scenario.catalog := by simp [Scenario.catalog]
    have declared' : (scenario.trendName, Kind.trend) ∈ scenario.catalog := by simp [Scenario.catalog]
    obtain ⟨general, hgeneral, hsamples⟩ := find?_trend scenario run shards declared
    obtain ⟨own, hown, hsamples'⟩ := find?_trend scenario run shards declared'
    exact ⟨general, own, hgeneral, hown, hsamples, hsamples', length_latencies scenario run⟩
  own := by
    cases scenario with
    | couponIssue =>
        -- Whatever is not queued counts as a failure.
        refine ⟨run.countP fun x => ¬ outcome .couponIssue x = .queued, ?_, ?_, ?_⟩
        · simpa [tally] using (List.length_eq_countP_add_countP
            (fun x => decide (outcome .couponIssue x = .queued)) (l := run)).symm
        · exact find?_counter .couponIssue run shards (by simp [Scenario.catalog, Scenario.ownSeries])
            fun x => by simpa using counted_successCount
        · exact find?_counter .couponIssue run shards (by simp [Scenario.catalog, Scenario.ownSeries])
            fun x => by simpa using counted_failCount
    | popularProducts threshold =>
        constructor
        · exact find?_counter_of_all _ run shards (by simp [Scenario.catalog, Scenario.ownSeries])
            fun x => counted_totalRequests threshold
        · exact find?_rate _ run shards (by simp [Scenario.catalog, Scenario.ownSeries])
            fun x => hits_cacheHitRate threshold
  shares few name rate h := by
    obtain ⟨hits, hle, rfl⟩ := rate_of_find? scenario run shards h
    exact toNat_total hle few

end LoadTest.Outcome
