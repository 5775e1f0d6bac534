import LoadTest.Metric.Stored
import LoadTest.Threshold.Spec
import LoadTest.Timestamp

/-!
# LoadTest.Report.Basic

What is left of a run: its figures, its verdict and what is known about it otherwise. A report is
written as JSON and read back by `Report.ofJson?`; **everything a report shows is in its JSON form,** so
a report that was read back reads the same.
-/

namespace LoadTest

open LoadTest.Metric LoadTest.Format

/-- A quantity read before and after a run. -/
structure Inventory where
  before : Int
  after : Int
  consumed : Int
  deriving DecidableEq

/-- The inventory of two readings; none if their difference has no 64 bits. -/
def Inventory.ofReadings? (before after : Int) : Option Inventory :=
  let consumed := before - after
  if -signedLimit ≤ consumed ∧ consumed < signedLimit then some ⟨before, after, consumed⟩ else none

/-- What is known about a run apart from its series. -/
structure RunInfo where
  scenario : String
  tags : Table String
  startedAt : Timestamp
  runDuration : Duration
  peakUsers : Nat
  categories : List String
  inventory : Option Inventory
  aborted : Bool

/-- A finished run. -/
structure Report where
  scenario : String
  tags : Table String
  startedAt : String
  runMillis : UInt64
  peakUsers : UInt64
  iterations : UInt64
  outcomes : Table UInt64
  metrics : Snapshot
  thresholds : List Threshold.Result
  passed : Bool
  aborted : Bool
  inventory : Option Inventory

namespace Report

/-- The report of a run. The outcomes are the totals of its categories. -/
def build (info : RunInfo) (metrics : Snapshot) (verdict : Threshold.Verdict) : Report where
  scenario := info.scenario
  tags := info.tags
  startedAt := info.startedAt.text
  runMillis := UInt64.ofNat (info.runDuration.nanos / 1_000_000)
  peakUsers := UInt64.ofNat info.peakUsers
  iterations := metrics.counter "iterations"
  outcomes := Table.ofList (info.categories.map fun c => (c, metrics.counter (c ++ "_total")))
  metrics
  thresholds := verdict.results
  passed := verdict.passed
  aborted := info.aborted
  inventory := info.inventory

/-! ### JSON -/

/-- An inventory as a JSON value. -/
def inventoryJson (i : Inventory) : Json :=
  Json.ofMembers [("before", Json.ofInt i.before), ("after", Json.ofInt i.after),
    ("consumed", Json.ofInt i.consumed)]

/-- The inventory that a JSON value describes. -/
def inventory? (json : Json) : Option Inventory := do
  let record ← Record.ofSource? [⟨"before", []⟩, ⟨"after", []⟩, ⟨"consumed", []⟩] json
  pure ⟨← record.required? "before" signed?, ← record.required? "after" signed?,
    ← record.required? "consumed" signed?⟩

/-- The outcome of a criterion as a JSON value. -/
def resultJson (r : Threshold.Result) : Json :=
  Json.ofMembers
    ([("metric", Json.ofString r.metric), ("expression", Json.ofString r.source),
      ("observed", Json.ofOption Json.ofDouble r.observed), ("passed", Json.bool r.passed)]
      ++ (r.description.map fun d => ("description", Json.ofString d)).toList)

/-- The outcome of a criterion that a JSON value describes. -/
def result? (json : Json) : Option Threshold.Result := do
  let names := ["metric", "expression", "observed", "passed", "description"]
  let record ← Record.ofSource? (names.map fun name => ⟨name, []⟩) json
  pure {
    metric := ← record.required? "metric" text?
    source := ← record.required? "expression" text?
    observed := ← record.maybe? "observed" double?
    passed := ← record.required? "passed" bool?
    description := ← record.withDefault? "description" none (optional? text?) }

/-- The members of a report, in the order in which they are written. -/
def members (r : Report) : List (String × Json) :=
  [("scenario", Json.ofString r.scenario), ("tags", Json.ofTable Json.ofString r.tags),
    ("started_at", Json.ofString r.startedAt), ("run_duration_ms", Json.ofWord r.runMillis),
    ("peak_vus", Json.ofWord r.peakUsers), ("iterations", Json.ofWord r.iterations),
    ("outcomes", Json.ofTable Json.ofWord r.outcomes), ("metrics", r.metrics.toJson),
    ("thresholds", Json.array (r.thresholds.map resultJson)), ("passed", Json.bool r.passed),
    ("aborted", Json.bool r.aborted)]
    ++ (r.inventory.map fun i => ("inventory", inventoryJson i)).toList

/-- A report as a JSON value. -/
def toJson (r : Report) : Json := Json.ofMembers r.members

/-- The report that a JSON value describes. -/
def ofJson? (json : Json) : Option Report := do
  let names := ["scenario", "tags", "started_at", "run_duration_ms", "peak_vus", "iterations",
    "outcomes", "metrics", "thresholds", "passed", "aborted", "inventory"]
  let record ← Record.ofSource? (names.map fun name => ⟨name, []⟩) json
  pure {
    scenario := ← record.required? "scenario" text?
    tags := ← record.withDefault? "tags" Table.empty (table? text?)
    startedAt := ← record.required? "started_at" text?
    runMillis := ← record.required? "run_duration_ms" word?
    peakUsers := ← record.required? "peak_vus" word?
    iterations := ← record.required? "iterations" word?
    outcomes := ← record.required? "outcomes" (table? word?)
    metrics := ← record.required? "metrics" Snapshot.ofJson?
    thresholds := ← record.required? "thresholds" (list? result?)
    passed := ← record.required? "passed" bool?
    aborted := ← record.withDefault? "aborted" false bool?
    inventory := ← record.withDefault? "inventory" none (optional? inventory?) }

/-- The report that a text describes. -/
def ofText? (s : String) : Option Report := do ofJson? (← Json.ofText? s)

/-- The text of a report, a line for each part. -/
def jsonText (r : Report) : String := r.toJson.pretty

end Report

end LoadTest
