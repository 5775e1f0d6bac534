import LoadTest.Workload.Basic
import LoadTest.Table

/-!
# LoadTest.Config.Basic

A run as its author describes it. **Every setting may be left out,** durations and thresholds are texts,
and nothing has been checked yet: that is what making a plan of it is for. Values given outside of the
configuration replace those inside it.
-/

namespace LoadTest

namespace Config

/-- A stage of the schedule. -/
structure StageEntry where
  duration : String
  target : Int
  deriving DecidableEq

/-- How user identities are drawn. -/
structure UserIds where
  baseModulo : Option UInt64
  jitterMax : Option UInt64
  multiplier : Option UInt64
  deriving DecidableEq

/-- The scenario, with its own settings. -/
inductive ScenarioEntry where
  | couponIssue (couponId : Option UInt64) (userIds : Option UserIds)
  | popularProducts (hot cold : Option IdRange) (hotProbability : Option Binary64)
      (cacheHitThreshold : Option String)
  deriving DecidableEq

/-- A threshold, bare or with a description. -/
inductive ThresholdEntry where
  | bare (expression : String)
  | described (expression : String) (description : Option String)
  deriving DecidableEq

/-- The pause between two iterations. -/
structure ThinkTimeEntry where
  min : String
  max : String
  deriving DecidableEq

/-- The probe of the stock. -/
structure InventoryEntry where
  enabled : Option Bool := none
  path : Option String := none
  field : Option String := none
  deriving DecidableEq

end Config

/-- A run as its author describes it. -/
structure Config where
  baseUrl : Option String := none
  scenario : Option Config.ScenarioEntry := none
  stages : Option (List Config.StageEntry) := none
  /-- Thresholds by metric. -/
  thresholds : Option (Table (List Config.ThresholdEntry)) := none
  thinkTime : Option Config.ThinkTimeEntry := none
  requestTimeout : Option String := none
  tick : Option String := none
  stop : Option String := none
  iterations : Option UInt64 := none
  abortOnFail : Option Bool := none
  abortDelay : Option String := none
  thresholdInterval : Option String := none
  healthCheck : Option String := none
  inventory : Option Config.InventoryEntry := none
  warmup : Option String := none
  tags : Option (Table String) := none

namespace Config

/-- Values given outside of the configuration. -/
structure Overrides where
  baseUrl : Option String := none
  couponId : Option UInt64 := none

/-- The scenario with another coupon. Where no scenario is named a coupon means the coupon scenario;
scenarios without coupons stay as they are. -/
def withCoupon (scenario : Option ScenarioEntry) (couponId : UInt64) : Option ScenarioEntry :=
  match scenario with
  | some (.couponIssue _ userIds) => some (.couponIssue (some couponId) userIds)
  | some (.popularProducts hot cold probability threshold) =>
      some (.popularProducts hot cold probability threshold)
  | none => some (.couponIssue (some couponId) none)

/-- The configuration with the values given outside of it. -/
def override (config : Config) (overrides : Overrides) : Config :=
  { config with
    baseUrl := overrides.baseUrl.or config.baseUrl
    scenario := match overrides.couponId with
      | some couponId => withCoupon config.scenario couponId
      | none => config.scenario }

end Config

end LoadTest
