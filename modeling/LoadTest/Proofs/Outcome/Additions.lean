import LoadTest.Outcome.Recorder
import LoadTest.Proofs.Metric.Addition
import Mathlib.Data.List.Nodup

/-!
# LoadTest.Proofs.Outcome.Additions

What recording one exchange adds to which series. **Each counter and each rate of the catalog is read off
the list of `additions` by itself,** so what a whole run adds is a sum over its exchanges.
-/

namespace LoadTest.Outcome

open LoadTest.Metric

/-! ### Names of series -/

namespace Category

theorem counterName_inj {a b : Category} : a.counterName = b.counterName ↔ a = b := by
  cases a <;> cases b <;> simp [counterName, name]

theorem rateName_inj {a b : Category} : a.rateName = b.rateName ↔ a = b := by
  cases a <;> cases b <;> simp [rateName, name]

end Category

/-- The counters that are no category's. -/
def plainCounters : List String :=
  ["http_reqs", "iterations", "parse_errors", "transport_errors", "success_count", "fail_count",
    "total_requests"]

/-- The rates that are no category's. -/
def plainRates : List String := ["errors", "http_req_failed", "cache_hit_rate_estimated"]

theorem Category.counterName_not_plain (category : Category) :
    category.counterName ∉ plainCounters := by
  cases category <;> simp [plainCounters, counterName, name]

theorem Category.rateName_not_plain (category : Category) : category.rateName ∉ plainRates := by
  cases category <;> simp [plainRates, rateName, name]

/-! ### One exchange -/

/-- Counts one, if something holds. -/
def countIf (name : String) (held : Bool) : List Addition := if held then [.count name 1] else []

/-- What recording adds for the categories: one to the counter of its own, an observation to each rate. -/
def categoryAdditions (categories : List Category) (category : Category) : List Addition :=
  categories.flatMap fun other =>
    countIf other.counterName (other = category) ++ [.observe other.rateName (other = category)]

/-- What recording adds for both scenarios alike, latencies apart. -/
def commonAdditions (category : Category) (exchange : Exchange) : List Addition :=
  [.count "http_reqs" 1, .count "iterations" 1, .observe "errors" category.isError]
    ++ countIf "parse_errors" (category = .parseError)
    ++ countIf "transport_errors" (category = .transportError)
    ++ [.observe "http_req_failed" exchange.failed]

/-- What recording adds to the trends: the latency of a response, to both. -/
def latencyAdditions (scenario : Scenario) (exchange : Exchange) : List Addition :=
  exchange.latency?.toList.flatMap fun latency =>
    [.sample "http_req_duration" latency, .sample scenario.trendName latency]

/-- Whether a response came faster than a threshold. -/
def isFaster (threshold : Duration) (exchange : Exchange) : Bool :=
  exchange.latency?.any fun latency => decide (latency < threshold)

/-- What recording adds for one scenario alone. -/
def ownAdditions (category : Category) (exchange : Exchange) : Scenario → List Addition
  | .couponIssue =>
      countIf "success_count" (category = .queued) ++ countIf "fail_count" (category ≠ .queued)
  | .popularProducts threshold =>
      [.count "total_requests" 1, .observe "cache_hit_rate_estimated" (isFaster threshold exchange)]

/-- All that recording an exchange adds, in order. -/
def additions (scenario : Scenario) (category : Category) (exchange : Exchange) : List Addition :=
  categoryAdditions scenario.categories category ++ commonAdditions category exchange
    ++ latencyAdditions scenario exchange ++ ownAdditions category exchange scenario

theorem foldl_recordCategory (category : Category) (categories : List Category) (sink : Sink) :
    categories.foldl (recordCategory category) sink
      = sink.addAll (categoryAdditions categories category) := by
  induction categories generalizing sink with
  | nil => rfl
  | cons other rest ih =>
      have hhead : recordCategory category sink other
          = sink.addAll (countIf other.counterName (other = category)
              ++ [.observe other.rateName (other = category)]) := by
        by_cases h : other = category <;> simp [recordCategory, countIf, h, Sink.add]
      rw [List.foldl_cons, ih, hhead, ← Sink.addAll_append]
      rfl

/-- Recording an exchange is recording its additions. -/
theorem record_eq_addAll (scenario : Scenario) (category : Category) (exchange : Exchange)
    (sink : Sink) :
    record scenario category exchange sink = sink.addAll (additions scenario category exchange) := by
  simp only [record, additions, Sink.addAll_append, foldl_recordCategory]
  -- What comes after the categories is the same whatever the sink was before.
  generalize sink.addAll (categoryAdditions scenario.categories category) = sink
  cases scenario <;> cases category <;> cases exchange <;> rfl

/-! ### Sums over additions -/

section Sums

variable (name : String) (held : Bool)

@[simp] theorem counted_countIf (other : String) :
    ((countIf other held).map (·.counted name)).sum = if name = other ∧ held then 1 else 0 := by
  cases held <;> simp [countIf]

@[simp] theorem observed_countIf (other : String) :
    ((countIf other held).map (·.observed name)).sum = 0 := by
  cases held <;> simp [countIf]

@[simp] theorem hits_countIf (other : String) :
    ((countIf other held).map (·.hits name)).sum = 0 := by
  cases held <;> simp [countIf]

@[simp] theorem samples_countIf (other : String) :
    (countIf other held).flatMap (·.samples name) = [] := by
  cases held <;> simp [countIf]

variable (scenario : Scenario) (exchange : Exchange)

@[simp] theorem counted_latencyAdditions :
    ((latencyAdditions scenario exchange).map (·.counted name)).sum = 0 := by
  cases exchange <;> simp [latencyAdditions, Exchange.latency?]

@[simp] theorem observed_latencyAdditions :
    ((latencyAdditions scenario exchange).map (·.observed name)).sum = 0 := by
  cases exchange <;> simp [latencyAdditions, Exchange.latency?]

@[simp] theorem hits_latencyAdditions :
    ((latencyAdditions scenario exchange).map (·.hits name)).sum = 0 := by
  cases exchange <;> simp [latencyAdditions, Exchange.latency?]

end Sums

/-! ### The series of categories -/

section Categories

variable (categories : List Category) (category c : Category)

/-- A sum over what is added for the categories, where only those for one category count. -/
theorem sum_categoryAdditions (f : Addition → Nat) (amount : Nat)
    (head : ∀ other : Category, ((countIf other.counterName (other = category)).map f).sum
      + f (.observe other.rateName (other = category)) = if c = other then amount else 0) :
    ((categoryAdditions categories category).map f).sum = categories.count c * amount := by
  induction categories with
  | nil => simp [categoryAdditions]
  | cons other rest ih =>
      have hcons : categoryAdditions (other :: rest) category
          = countIf other.counterName (other = category)
            ++ [.observe other.rateName (other = category)] ++ categoryAdditions rest category := rfl
      rw [hcons, List.map_append, List.sum_append, ih, List.map_append, List.sum_append,
        List.map_singleton, List.sum_singleton, head, List.count_cons]
      by_cases h : c = other
      · simp [h, Nat.add_mul, Nat.add_comm]
      · simp [h, Ne.symm h]

theorem counted_categoryAdditions :
    ((categoryAdditions categories category).map (·.counted c.counterName)).sum
      = categories.count c * if c = category then 1 else 0 := by
  refine sum_categoryAdditions categories category c _ _ fun other => ?_
  by_cases h : c = other <;> simp [Category.counterName_inj, h]

theorem observed_categoryAdditions :
    ((categoryAdditions categories category).map (·.observed c.rateName)).sum
      = categories.count c := by
  rw [sum_categoryAdditions categories category c _ 1 fun other => ?_, Nat.mul_one]
  simp [Category.rateName_inj]

theorem hits_categoryAdditions :
    ((categoryAdditions categories category).map (·.hits c.rateName)).sum
      = categories.count c * if c = category then 1 else 0 := by
  refine sum_categoryAdditions categories category c _ _ fun other => ?_
  by_cases h : c = other <;> simp [Category.rateName_inj, h]

theorem counted_categoryAdditions_of_plain {name : String} (h : name ∈ plainCounters) :
    ((categoryAdditions categories category).map (·.counted name)).sum = 0 := by
  induction categories with
  | nil => rfl
  | cons other rest ih =>
      have hne : name ≠ other.counterName := fun heq => other.counterName_not_plain (heq ▸ h)
      simpa [categoryAdditions, hne] using ih

theorem observed_categoryAdditions_of_plain {name : String} (h : name ∈ plainRates) :
    ((categoryAdditions categories category).map (·.observed name)).sum = 0 := by
  induction categories with
  | nil => rfl
  | cons other rest ih =>
      have hne : name ≠ other.rateName := fun heq => other.rateName_not_plain (heq ▸ h)
      simpa [categoryAdditions, hne] using ih

theorem hits_categoryAdditions_of_plain {name : String} (h : name ∈ plainRates) :
    ((categoryAdditions categories category).map (·.hits name)).sum = 0 := by
  -- What is not observed is not hit either.
  have hle := Addition.sum_hits_le name (categoryAdditions categories category)
  rw [observed_categoryAdditions_of_plain categories category h] at hle
  exact Nat.le_zero.mp hle

end Categories

/-! ### All that one exchange adds -/

section Exchange

variable {scenario : Scenario} {category c : Category} {exchange : Exchange}

theorem count_categories (h : c ∈ scenario.categories) : scenario.categories.count c = 1 := by
  refine List.count_eq_one_of_mem ?_ h
  cases scenario <;> simp [Scenario.categories]

/-- The counter of a category counts the exchanges of that category. -/
theorem counted_counterName (h : c ∈ scenario.categories) :
    ((additions scenario category exchange).map (·.counted c.counterName)).sum
      = if c = category then 1 else 0 := by
  have hplain := c.counterName_not_plain
  simp only [plainCounters, List.mem_cons, List.not_mem_nil, or_false, not_or] at hplain
  cases scenario <;>
    simp [additions, commonAdditions, ownAdditions, counted_categoryAdditions, count_categories h,
      hplain]

/-- The other counters are counted outside the categories. -/
theorem counted_of_plain {name : String} (h : name ∈ plainCounters) :
    ((additions scenario category exchange).map (·.counted name)).sum
      = ((commonAdditions category exchange ++ ownAdditions category exchange scenario).map
          (·.counted name)).sum := by
  simp [additions, counted_categoryAdditions_of_plain _ _ h]

theorem counted_httpReqs :
    ((additions scenario category exchange).map (·.counted "http_reqs")).sum = 1 := by
  rw [counted_of_plain (by simp [plainCounters])]
  cases scenario <;> simp [commonAdditions, ownAdditions]

theorem counted_iterations :
    ((additions scenario category exchange).map (·.counted "iterations")).sum = 1 := by
  rw [counted_of_plain (by simp [plainCounters])]
  cases scenario <;> simp [commonAdditions, ownAdditions]

theorem counted_parseErrors :
    ((additions scenario category exchange).map (·.counted "parse_errors")).sum
      = if category = .parseError then 1 else 0 := by
  rw [counted_of_plain (by simp [plainCounters])]
  cases scenario <;> simp [commonAdditions, ownAdditions]

theorem counted_transportErrors :
    ((additions scenario category exchange).map (·.counted "transport_errors")).sum
      = if category = .transportError then 1 else 0 := by
  rw [counted_of_plain (by simp [plainCounters])]
  cases scenario <;> simp [commonAdditions, ownAdditions]

theorem counted_successCount :
    ((additions .couponIssue category exchange).map (·.counted "success_count")).sum
      = if category = .queued then 1 else 0 := by
  rw [counted_of_plain (by simp [plainCounters])]
  simp [commonAdditions, ownAdditions]

theorem counted_failCount :
    ((additions .couponIssue category exchange).map (·.counted "fail_count")).sum
      = if category = .queued then 0 else 1 := by
  rw [counted_of_plain (by simp [plainCounters])]
  by_cases h : category = .queued <;> simp [commonAdditions, ownAdditions, h]

theorem counted_totalRequests (threshold : Duration) :
    ((additions (.popularProducts threshold) category exchange).map
      (·.counted "total_requests")).sum = 1 := by
  rw [counted_of_plain (by simp [plainCounters])]
  simp [commonAdditions, ownAdditions]

/-- The rates that are no category's are observed outside the categories. -/
theorem observed_of_plain {name : String} (h : name ∈ plainRates) :
    ((additions scenario category exchange).map (·.observed name)).sum
      = ((commonAdditions category exchange ++ ownAdditions category exchange scenario).map
          (·.observed name)).sum := by
  simp [additions, observed_categoryAdditions_of_plain _ _ h]

theorem hits_of_plain {name : String} (h : name ∈ plainRates) :
    ((additions scenario category exchange).map (·.hits name)).sum
      = ((commonAdditions category exchange ++ ownAdditions category exchange scenario).map
          (·.hits name)).sum := by
  simp [additions, hits_categoryAdditions_of_plain _ _ h]

theorem hits_rateName (h : c ∈ scenario.categories) :
    ((additions scenario category exchange).map (·.hits c.rateName)).sum
      = if c = category then 1 else 0 := by
  have hplain := c.rateName_not_plain
  simp only [plainRates, List.mem_cons, List.not_mem_nil, or_false, not_or] at hplain
  cases scenario <;>
    simp [additions, commonAdditions, ownAdditions, hits_categoryAdditions, count_categories h, hplain]

theorem hits_errors :
    ((additions scenario category exchange).map (·.hits "errors")).sum
      = if category.isError then 1 else 0 := by
  rw [hits_of_plain (by simp [plainRates])]
  cases scenario <;> simp [commonAdditions, ownAdditions]

theorem hits_httpReqFailed :
    ((additions scenario category exchange).map (·.hits "http_req_failed")).sum
      = if exchange.failed then 1 else 0 := by
  rw [hits_of_plain (by simp [plainRates])]
  cases scenario <;> simp [commonAdditions, ownAdditions]

theorem hits_cacheHitRate (threshold : Duration) :
    ((additions (.popularProducts threshold) category exchange).map
      (·.hits "cache_hit_rate_estimated")).sum = if isFaster threshold exchange then 1 else 0 := by
  rw [hits_of_plain (by simp [plainRates])]
  simp [commonAdditions, ownAdditions]

/-- **Every rate of the catalog is observed exactly once by every exchange,** so all of them are shares
of the same total. -/
theorem observed_of_catalog {name : String} (h : (name, Kind.rate) ∈ scenario.catalog) :
    ((additions scenario category exchange).map (·.observed name)).sum = 1 := by
  have hname : name = "errors" ∨ name = "http_req_failed" ∨ (∃ c ∈ scenario.categories, name = c.rateName)
      ∨ (name = "cache_hit_rate_estimated" ∧ ∃ threshold, scenario = .popularProducts threshold) := by
    simp only [Scenario.catalog, List.mem_append, List.mem_flatMap] at h
    rcases h with (h | ⟨c, hc, h⟩) | h
    · simp at h
      tauto
    · exact .inr (.inr (.inl ⟨c, hc, by simpa using h⟩))
    · cases scenario with
      | couponIssue => simp [Scenario.ownSeries] at h
      | popularProducts threshold =>
          exact .inr (.inr (.inr ⟨by simpa [Scenario.ownSeries] using h, threshold, rfl⟩))
  rcases hname with rfl | rfl | ⟨c, hc, rfl⟩ | ⟨rfl, threshold, rfl⟩
  · rw [observed_of_plain (by simp [plainRates])]
    cases scenario <;> simp [commonAdditions, ownAdditions]
  · rw [observed_of_plain (by simp [plainRates])]
    cases scenario <;> simp [commonAdditions, ownAdditions]
  · have hplain := c.rateName_not_plain
    simp only [plainRates, List.mem_cons, List.not_mem_nil, or_false, not_or] at hplain
    cases scenario <;>
      simp [additions, commonAdditions, ownAdditions, observed_categoryAdditions, count_categories hc,
        hplain]
  · rw [observed_of_plain (by simp [plainRates])]
    simp [commonAdditions, ownAdditions]

/-- Only responses leave samples. -/
theorem samples_additions (name : String) :
    (additions scenario category exchange).flatMap (·.samples name)
      = (latencyAdditions scenario exchange).flatMap (·.samples name) := by
  have hcategories : (categoryAdditions scenario.categories category).flatMap (·.samples name) = [] := by
    simp [categoryAdditions, List.flatMap_assoc]
  cases scenario <;> simp [additions, commonAdditions, ownAdditions, hcategories]

/-- **Every trend of the catalog takes the latency of every response,** and nothing else. -/
theorem samples_of_catalog {name : String} (h : (name, Kind.trend) ∈ scenario.catalog) :
    (additions scenario category exchange).flatMap (·.samples name) = exchange.latency?.toList := by
  have hname : name = "http_req_duration" ∨ name = scenario.trendName := by
    simp only [Scenario.catalog, List.mem_append, List.mem_flatMap] at h
    rcases h with (h | ⟨c, hc, h⟩) | h
    · simpa using h
    · simp at h
    · cases scenario <;> simp [Scenario.ownSeries] at h
  rw [samples_additions]
  rcases hname with rfl | rfl <;> cases scenario <;> cases exchange <;>
    simp [latencyAdditions, Exchange.latency?, Scenario.trendName]

end Exchange

end LoadTest.Outcome
