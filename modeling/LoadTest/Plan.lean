import LoadTest.Scenario.Basic
import LoadTest.Text.Quoted
import LoadTest.Threshold.Spec

/-!
# LoadTest.Plan

Everything that is decided about a run before it starts. A plan has no absent settings: **what a
configuration leaves open is filled in when the plan is made.** Thresholds that only the complete run can
meet are left out of the checks during the run.
-/

namespace LoadTest

open LoadTest.Metric Threshold

/-- Where the stock of the target is found. -/
structure InventoryProbe where
  path : String
  field : String
  deriving DecidableEq

/-- A run, decided in full. -/
structure Plan where
  baseUrl : String
  scenario : Scenario
  workload : Workload
  schedule : Schedule
  thresholds : List Spec
  thinkTime : ThinkTime
  requestTimeout : Duration
  /-- The time between two looks at the schedule. -/
  tick : Duration
  /-- How long users may take to finish once the run is over. -/
  gracefulStop : Duration
  /-- How many iterations each user does at most. -/
  iterations : Option UInt64
  /-- Whether the run ends as soon as a threshold fails. -/
  abortOnFail : Bool
  /-- The time on the schedule before thresholds are first checked, if one was set. -/
  abortDelaySetting : Option Duration
  /-- The time between two checks of the thresholds. -/
  thresholdInterval : Duration
  /-- The path that has to answer before the run starts. -/
  healthCheck : Option String
  /-- The address that connections are opened to in advance. -/
  warmup : Option String
  inventory : Option InventoryProbe
  tags : Table String

namespace Plan

/-- The time between two looks at the schedule if nothing else is said. -/
def defaultTick : Duration := .ofMillis 100

/-- How long users may take to finish if nothing else is said. -/
def defaultGracefulStop : Duration := .ofSeconds 30

/-- The limit of a request if nothing else is said. -/
def defaultRequestTimeout : Duration := .ofSeconds 10

/-- The time between two checks of the thresholds if nothing else is said. -/
def defaultThresholdInterval : Duration := .ofSeconds 5

/-- A plan with every setting left open; it has no thresholds. -/
def ofSchedule (baseUrl : String) (scenario : Scenario) (workload : Workload) (schedule : Schedule) :
    Plan where
  baseUrl
  scenario
  workload
  schedule
  thresholds := []
  thinkTime := scenario.defaultThinkTime
  requestTimeout := defaultRequestTimeout
  tick := defaultTick
  gracefulStop := defaultGracefulStop
  iterations := none
  abortOnFail := false
  abortDelaySetting := none
  thresholdInterval := defaultThresholdInterval
  healthCheck := none
  warmup := none
  inventory := none
  tags := Table.empty.insert "test_scenario" scenario.name

/-- The time on the schedule before thresholds are first checked: the first stage, unless it was set. -/
def abortDelay (plan : Plan) : Duration := plan.abortDelaySetting.getD plan.schedule.firstDuration

/-- The thresholds that can be checked while the run goes on. -/
def abortThresholds (plan : Plan) : List Spec :=
  plan.thresholds.filter fun spec =>
    match plan.scenario.kindOf? spec.metric with
    | some kind => !spec.needsFullRun kind
    | none => false

/-- Whether a threshold is on a series of the scenario, and on something that series of its kind have. -/
def checkThreshold (scenario : Scenario) (spec : Spec) : Except ConfigError Unit :=
  match scenario.kindOf? spec.metric with
  | none => .error (.unknownMetric spec.metric)
  | some kind => spec.check kind

/-- Checks every threshold; the first that fails decides. -/
def checkThresholds (plan : Plan) : Except ConfigError Unit :=
  plan.thresholds.forM (checkThreshold plan.scenario)

/-- How many shards the trends of a run have: about one for a hundred users. -/
def shards (plan : Plan) : Nat := min (max (plan.schedule.maxTarget / 100) 16) 256

/-- An optional setting as shown to developers. -/
def describeOption {α : Type} (text : α → String) : Option α → String
  | some a => "Some(" ++ text a ++ ")"
  | none => "None"

/-- The plan as shown to developers. -/
def describe (plan : Plan) : String :=
  let fields : List (String × String) := [
    ("base_url", Text.quoted plan.baseUrl),
    ("scenario", plan.scenario.describe),
    ("workload", plan.workload.describe),
    ("stages", toString plan.schedule.stages.length),
    ("thresholds", toString plan.thresholds.length),
    ("think_time", plan.thinkTime.describe),
    ("request_timeout", plan.requestTimeout.text),
    ("tick", plan.tick.text),
    ("graceful_stop", plan.gracefulStop.text),
    ("iterations", describeOption toString plan.iterations),
    ("abort_on_fail", toString plan.abortOnFail),
    ("abort_delay", describeOption Duration.text plan.abortDelaySetting)]
  "RunPlan \x7b " ++ String.intercalate ", " (fields.map fun (name, value) => name ++ ": " ++ value)
    ++ " \x7d"

end Plan

end LoadTest
