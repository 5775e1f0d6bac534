import LoadTest.Outcome.Classify

/-!
# LoadTest.Outcome.Recorder

Writing the outcome of an exchange into the series of a sink. **One exchange is one step:** it adds to
every series that counts iterations, or to none. Before the first exchange, `missing?` finds out whether
the sink lacks a series that will be written to.
-/

namespace LoadTest.Outcome

open LoadTest.Metric

/-- The series that recording writes to, in the order in which they are looked up. -/
def required (scenario : Scenario) : List (String × Kind) :=
  (scenario.categories.flatMap fun category =>
      [(category.counterName, Kind.counter), (category.rateName, Kind.rate)])
    ++ (match scenario with
      | .couponIssue => [("success_count", Kind.counter), ("fail_count", .counter)]
      | .popularProducts _ => [("total_requests", .counter), ("cache_hit_rate_estimated", .rate)])
    ++ [("http_reqs", .counter), ("iterations", .counter), ("parse_errors", .counter),
      ("transport_errors", .counter), ("http_req_failed", .rate), ("errors", .rate),
      ("http_req_duration", .trend), (scenario.trendName, .trend)]

/-- Whether a sink has a series of a name and kind. -/
def hasSeries (sink : Sink) : String × Kind → Bool
  | (name, .counter) => sink.counters.contains name
  | (name, .rate) => sink.rates.contains name
  | (name, .trend) => sink.trends.contains name

/-- The first series that a sink lacks. -/
def missing? (scenario : Scenario) (sink : Sink) : Option String :=
  ((required scenario).find? fun series => !hasSeries sink series).map (·.1)

/-- A sink that has every series that recording writes to. -/
def checkSink (scenario : Scenario) (sink : Sink) : Except ConfigError Unit :=
  match missing? scenario sink with
  | some name => .error (.unknownMetric name)
  | none => .ok ()

/-- Counts the exchange for its category, and against every other. -/
def recordCategory (category : Category) (sink : Sink) (other : Category) : Sink :=
  let hit := decide (other = category)
  let sink := if hit then sink.count other.counterName 1 else sink
  sink.observe other.rateName hit

/-- Adds the latency of a response to both trends. -/
def recordLatency (scenario : Scenario) (sink : Sink) (latency : Duration) : Sink :=
  (sink.sample "http_req_duration" latency).sample scenario.trendName latency

/-- What only the scenario itself records: successes and failures, or an estimate of cache hits from
the latency alone. -/
def recordOwn (scenario : Scenario) (category : Category) (latency? : Option Duration) (sink : Sink) :
    Sink :=
  match scenario with
  | .couponIssue =>
      if category = .queued then sink.count "success_count" 1 else sink.count "fail_count" 1
  | .popularProducts threshold =>
      (sink.count "total_requests" 1).observe "cache_hit_rate_estimated"
        (latency?.any fun latency => decide (latency < threshold))

/-- Records one exchange with its outcome. -/
def record (scenario : Scenario) (category : Category) (exchange : Exchange) (sink : Sink) : Sink :=
  let sink := scenario.categories.foldl (recordCategory category) sink
  let sink := (sink.count "http_reqs" 1).count "iterations" 1
  let sink := sink.observe "errors" category.isError
  let sink := match category with
    | .parseError => sink.count "parse_errors" 1
    | .transportError => sink.count "transport_errors" 1
    | _ => sink
  let sink := sink.observe "http_req_failed" exchange.failed
  let sink := match exchange.latency? with
    | some latency => recordLatency scenario sink latency
    | none => sink
  recordOwn scenario category exchange.latency? sink

end LoadTest.Outcome
