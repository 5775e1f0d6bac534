import LoadTest.ConfigError
import LoadTest.Metric.Snapshot

/-!
# LoadTest.Threshold.Spec

Criteria bound to a series, and the verdict of a list of them on a snapshot. **A criterion whose value
cannot be observed fails;** which ones can be is decided by the kind of the series alone
(`Aggregate.appliesTo`), before a run starts.
-/

namespace LoadTest.Threshold

open LoadTest.Metric

/-- A criterion on a named series. `source` is the expression as it was written, without the blanks
around it. -/
structure Spec where
  metric : String
  source : String
  expression : Expression
  description : Option String
  deriving DecidableEq

namespace Spec

/-- The criterion that a text denotes for a series. -/
def ofText? (metric source : String) (description : Option String) : Except ConfigError Spec :=
  match Expression.ofText? source with
  | .ok expression => .ok ⟨metric, Text.trim source, expression, description⟩
  | .error fault => .error (.invalidThreshold metric source fault)

/-- Refuses an aggregate that cannot be computed for a series of a kind. -/
def check (spec : Spec) (kind : Kind) : Except ConfigError Unit :=
  if spec.expression.aggregate.appliesTo kind then .ok ()
  else
    .error (.invalidThreshold spec.metric spec.source (.notApplicable spec.expression.aggregate kind))

/-- Whether the criterion means something only at the end of a run. Throughput and lower bounds of a
total start low, so a healthy run would fail them on the way. -/
def needsFullRun (spec : Spec) (kind : Kind) : Bool :=
  kind = .counter &&
    (spec.expression.aggregate = .rate || spec.expression.comparison = .greater
      || spec.expression.comparison = .atLeast || spec.expression.comparison = .equal)

/-- The value of an aggregate of a trend. -/
def trendValue? (trend : TrendSummary) : Aggregate → Option Binary64
  | .percentile p => trend.percentile? p
  | .avg => some trend.avg
  | .min => some trend.min
  | .max => some trend.max
  | .med => some trend.med
  | .count => some (Binary64.ofNat trend.count.toNat)
  | .rate => none

/-- The value of an aggregate of a total after so much time; the rate is per second, and zero as long
as no time has passed. -/
def counterValue? (total : UInt64) (elapsed : Duration) : Aggregate → Option Binary64
  | .count => some (Binary64.ofNat total.toNat)
  | .rate =>
      let seconds := elapsed.toSeconds
      some (if 0 < seconds then Binary64.ofNat total.toNat / seconds else 0)
  | _ => none

/-- The value that a criterion is about, if the snapshot has it. -/
def observed? (spec : Spec) (snapshot : Snapshot) (elapsed : Duration) : Option Binary64 :=
  match snapshot.kindOf? spec.metric with
  | some .trend => do trendValue? (← snapshot.trends.find? spec.metric) spec.expression.aggregate
  | some .rate =>
      if spec.expression.aggregate = .rate then some (snapshot.rate spec.metric) else none
  | some .counter => counterValue? (snapshot.counter spec.metric) elapsed spec.expression.aggregate
  | none => none

end Spec

/-- What became of one criterion. -/
structure Result where
  metric : String
  source : String
  observed : Option Binary64
  passed : Bool
  description : Option String
  deriving DecidableEq

/-- What became of a list of criteria. -/
structure Verdict where
  results : List Result
  passed : Bool
  deriving DecidableEq

/-- What becomes of one criterion. -/
def Spec.judge (spec : Spec) (snapshot : Snapshot) (elapsed : Duration) : Result :=
  let observed := spec.observed? snapshot elapsed
  { metric := spec.metric
    source := spec.source
    observed
    passed := observed.any fun value => spec.expression.comparison.holds value spec.expression.bound
    description := spec.description }

/-- Judges every criterion; the verdict passes if all of them do. -/
def evaluate (specs : List Spec) (snapshot : Snapshot) (elapsed : Duration) : Verdict :=
  let results := specs.map fun spec => spec.judge snapshot elapsed
  ⟨results, results.all (·.passed)⟩

/-- The criteria that failed. -/
def Verdict.failures (verdict : Verdict) : List Result := verdict.results.filter fun r => !r.passed

end LoadTest.Threshold
