import LoadTest.Exchange
import LoadTest.Metric.Sink
import LoadTest.Outcome.Category
import LoadTest.Schedule
import LoadTest.Workload.Basic
import LoadTest.Workload.ThinkTime

/-!
# LoadTest.Scenario.Basic

The two things a run can do: issue coupons, or query popular products. A scenario says which request an
iteration sends, which outcomes it can have and **which series a run of it records** (`catalog`), and
what is used where a configuration says nothing.
-/

namespace LoadTest

open LoadTest.Metric Outcome

/-- What the users of a run do. -/
inductive Scenario where
  /-- Ask for a coupon, each user in its own name. -/
  | couponIssue
  /-- Ask for a product. Responses faster than the threshold are taken for cache hits. -/
  | popularProducts (cacheHitThreshold : Duration)
  deriving DecidableEq

namespace Scenario

/-- The cache hit threshold if nothing else is said. -/
def defaultCacheHitThreshold : Duration := .ofMillis 50

/-- The scenario's name in configurations and reports. -/
def name : Scenario → String
  | .couponIssue => "coupon-issue"
  | .popularProducts _ => "popular-products"

/-- The scenario as shown to developers. -/
def describe : Scenario → String
  | .couponIssue => "CouponIssue"
  | .popularProducts threshold =>
      "PopularProducts \x7b cache_hit_threshold: " ++ threshold.text ++ " \x7d"

/-! ### Requests -/

/-- An address without the slashes at its end. -/
def trimBase (url : String) : String := String.ofList (Text.dropEndWhile (· = '/') url.toList)

/-- The request that an iteration sends. -/
def request (scenario : Scenario) (baseUrl : String) (parameters : Parameters) : Request :=
  match scenario with
  | .couponIssue =>
      let request : Request := {
        method := .post
        url := trimBase baseUrl ++ "/coupons/" ++ toString parameters.target ++ "/issue"
        headers := [("Content-Type", "application/json"), ("Accept", "application/json")] }
      match parameters.user? with
      | some user => request.withHeader "userId" (toString user)
      | none => request
  | .popularProducts _ => {
      method := .get
      url := trimBase baseUrl ++ "/products/" ++ toString parameters.target
      headers := [("Content-Type", "application/json")] }

/-! ### Series -/

/-- The outcomes an exchange can have, in the order of reports. -/
def categories : Scenario → List Category
  | .couponIssue => [.queued, .duplicate, .soldOut, .unexpectedStatus, .transportError, .parseError]
  | .popularProducts _ => [.found, .unexpectedStatus, .transportError, .parseError]

/-- The latency trend that the scenario keeps beside the general one. -/
def trendName : Scenario → String
  | .couponIssue => "api_response_time"
  | .popularProducts _ => "product_query_time"

/-- The series of the scenario alone. -/
def ownSeries : Scenario → List (String × Kind)
  | .couponIssue => [("success_count", .counter), ("fail_count", .counter)]
  | .popularProducts _ => [("total_requests", .counter), ("cache_hit_rate_estimated", .rate)]

/-- Every series that a run records, by name and kind. -/
def catalog (scenario : Scenario) : List (String × Kind) :=
  [("http_reqs", .counter), ("iterations", .counter), ("parse_errors", .counter),
      ("transport_errors", .counter), ("http_req_failed", .rate), ("errors", .rate),
      ("http_req_duration", .trend), (scenario.trendName, .trend)]
    ++ (scenario.categories.flatMap fun category =>
      [(category.counterName, Kind.counter), (category.rateName, Kind.rate)])
    ++ scenario.ownSeries

/-- The kind of the series of a name. -/
def kindOf? (scenario : Scenario) (metric : String) : Option Kind := scenario.catalog.lookup metric

/-- A sink with the series of the catalog. -/
def sink (scenario : Scenario) (shards : Nat) : Sink := .ofSeries scenario.catalog shards

/-! ### What is used where nothing is said -/

/-- A ramp up, a peak and a ramp down. -/
def defaultStages : List Stage :=
  [⟨.ofSeconds 15, 50⟩, ⟨.ofSeconds 15, 100⟩, ⟨.ofSeconds 30, 300⟩, ⟨.ofSeconds 15, 100⟩,
    ⟨.ofSeconds 15, 0⟩]

/-- Metrics and the thresholds on them. -/
def defaultThresholds : Scenario → List (String × String)
  | .couponIssue =>
      [("http_req_duration", "p(50)<100"), ("http_req_duration", "p(95)<300"),
        ("http_req_duration", "p(99)<500"), ("errors", "rate<0.10"), ("http_req_failed", "rate<0.10"),
        ("http_reqs", "rate>50")]
  | .popularProducts _ =>
      [("http_req_duration", "p(50)<50"), ("http_req_duration", "p(95)<200"),
        ("http_req_duration", "p(99)<500"), ("errors", "rate<0.05"), ("http_req_failed", "rate<0.05"),
        ("http_reqs", "rate>100")]

/-- The pause between two iterations. -/
def defaultThinkTime : Scenario → ThinkTime
  | .couponIssue => ⟨.ofMillis 500, .ofSeconds 2⟩
  | .popularProducts _ => ⟨.ofSeconds 1, .ofSeconds 3⟩

/-- The path that has to answer before a run starts. -/
def defaultHealthCheck? : Scenario → Option String
  | .couponIssue => none
  | .popularProducts _ => some "/actuator/health"

/-- The path at which the stock of a target is found, in a scenario that uses it up. -/
def defaultInventoryPath? (scenario : Scenario) (target : UInt64) : Option String :=
  match scenario with
  | .couponIssue => some ("/api/coupons/" ++ toString target)
  | .popularProducts _ => none

end Scenario

end LoadTest
