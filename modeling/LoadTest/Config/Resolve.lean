import LoadTest.Config.Basic
import LoadTest.Duration.Parser
import LoadTest.Plan
import LoadTest.Probe

/-!
# LoadTest.Config.Resolve

From a configuration to a plan. Settings are checked one after the other, and **the first fault decides
which error there is:** address, scenario, stages, thresholds, pauses, times, iterations.
-/

namespace LoadTest.Config

open Threshold

/-- A duration that a setting denotes. -/
def duration (field value : String) : Except ConfigError Duration :=
  match Duration.ofText? value with
  | some d => .ok d
  | none => .error (.invalidDuration field value)

/-- A duration that a setting denotes, or a default if there is none. -/
def durationOr (field : String) (value : Option String) (default : Duration) :
    Except ConfigError Duration :=
  match value with
  | some value => duration field value
  | none => .ok default

/-- A duration that must not be zero. -/
def positive (field : String) (d : Duration) : Except ConfigError Duration :=
  if d.nanos = 0 then .error (.invalidValue field .zero) else .ok d

/-- The address of the target, without blanks around it. It has to name a web scheme. -/
def resolveBaseUrl (config : Config) : Except ConfigError String :=
  match config.baseUrl.map Text.trim with
  | none => .error (.missing "base_url")
  | some url =>
      if url = "" then .error (.missing "base_url")
      else if Probe.isAbsolute url then .ok url
      else .error (.invalidValue "base_url" (.notWebAddress url))

/-- What a scenario entry stands for: the scenario, its workload, and the target whose stock is used
up. -/
def resolveScenario : ScenarioEntry → Except ConfigError (Scenario × Workload × UInt64)
  | .couponIssue couponId userIds => do
      let target := couponId.getD 1
      let jitter : Jitter := match userIds with
        | none => {}
        | some ids => {
            baseModulo := ids.baseModulo.getD 10000
            jitterMax := ids.jitterMax.getD 10
            multiplier := ids.multiplier.getD 10000 }
      let workload := Workload.shared target jitter
      workload.check
      pure (.couponIssue, workload, target)
  | .popularProducts hot cold hotProbability cacheHitThreshold => do
      let workload := Workload.skewed (hot.getD Workload.defaultHot) (cold.getD Workload.defaultCold)
        (hotProbability.getD Workload.defaultHotProbability)
      workload.check
      let threshold ← durationOr "scenario.cache_hit_threshold" cacheHitThreshold
        Scenario.defaultCacheHitThreshold
      pure (.popularProducts threshold, workload, 0)

/-- The stage of an entry at a position. -/
def resolveStage (entry : StageEntry × Nat) : Except ConfigError Stage := do
  let (stage, index) := entry
  let length ← duration ("stages[" ++ toString index ++ "].duration") stage.duration
  if stage.target < 0 then .error (.invalidStages (.negativeTarget index stage.target))
  else .ok ⟨length, stage.target.toNat⟩

/-- The schedule of a list of entries, or the default one. -/
def resolveSchedule : Option (List StageEntry) → Except ConfigError Schedule
  | none => Schedule.ofStages Scenario.defaultStages
  | some entries => do Schedule.ofStages (← entries.zipIdx.mapM resolveStage)

/-- The criterion that an entry stands for. -/
def ThresholdEntry.resolve (metric : String) : ThresholdEntry → Except ConfigError Spec
  | .bare expression => Spec.ofText? metric expression none
  | .described expression description => Spec.ofText? metric expression description

/-- The criteria of a configuration, by metric, or those of the scenario. -/
def resolveThresholds (scenario : Scenario) :
    Option (Table (List ThresholdEntry)) → Except ConfigError (List Spec)
  | some table => do
      let specs ← table.entries.mapM fun (metric, entries) => entries.mapM (·.resolve metric)
      pure specs.flatten
  | none => scenario.defaultThresholds.mapM fun (metric, source) => Spec.ofText? metric source none

/-- The pause between iterations, or that of the scenario. -/
def resolveThinkTime (scenario : Scenario) : Option ThinkTimeEntry → Except ConfigError ThinkTime
  | some entry => do
      let min ← duration "think_time.min" entry.min
      let max ← duration "think_time.max" entry.max
      ThinkTime.ofBounds min max
  | none => .ok scenario.defaultThinkTime

/-- A limit of iterations has to allow one. -/
def resolveIterations : Option UInt64 → Except ConfigError (Option UInt64)
  | some limit => if limit = 0 then .error (.invalidValue "iterations" .noRepetition) else .ok (some limit)
  | none => .ok none

/-- The path of the health check; a blank one switches it off. -/
def resolveHealthCheck (scenario : Scenario) : Option String → Option String
  | some path => if Text.isAllBlank path then none else some path
  | none => scenario.defaultHealthCheck?

/-- The probe of the stock, unless it is switched off or nobody says where to look. -/
def resolveInventory (scenario : Scenario) (target : UInt64) (entry : Option InventoryEntry) :
    Option InventoryProbe :=
  let entry := entry.getD {}
  if entry.enabled = some false then none
  else
    (entry.path.or (scenario.defaultInventoryPath? target)).map fun path =>
      ⟨path, entry.field.getD "quantity"⟩

/-- The plan that a configuration describes. -/
def resolve (config : Config) : Except ConfigError Plan := do
  let baseUrl ← resolveBaseUrl config
  let entry ← match config.scenario with
    | some entry => Except.ok entry
    | none => .error (.missing "scenario")
  let (scenario, workload, target) ← resolveScenario entry
  let schedule ← resolveSchedule config.stages
  let plan := Plan.ofSchedule baseUrl scenario workload schedule
  let thresholds ← resolveThresholds scenario config.thresholds
  let plan := { plan with thresholds }
  plan.checkThresholds
  let thinkTime ← resolveThinkTime scenario config.thinkTime
  let requestTimeout ← positive "request_timeout"
    (← durationOr "request_timeout" config.requestTimeout Plan.defaultRequestTimeout)
  let tick ← positive "tick" (← durationOr "tick" config.tick Plan.defaultTick)
  let gracefulStop ← durationOr "stop" config.stop Plan.defaultGracefulStop
  let thresholdInterval ← positive "threshold_interval"
    (← durationOr "threshold_interval" config.thresholdInterval Plan.defaultThresholdInterval)
  let iterations ← resolveIterations config.iterations
  let abortDelaySetting ← config.abortDelay.mapM (duration "abort_delay")
  let tags := plan.tags.insert "environment" "loadtest"
  let tags := match config.tags with
    | some more => more.entries.foldl (fun tags (key, value) => tags.insert key value) tags
    | none => tags
  pure { plan with
    thinkTime, requestTimeout, tick, gracefulStop, thresholdInterval, iterations, abortDelaySetting
    abortOnFail := config.abortOnFail.getD false
    healthCheck := resolveHealthCheck scenario config.healthCheck
    warmup := config.warmup
    inventory := resolveInventory scenario target config.inventory
    tags }

end LoadTest.Config
