import LoadTest.Config.Basic
import LoadTest.Json.Value

/-!
# LoadTest.Config.Writer

Configurations as JSON values. **Every setting is written, under its first spelling;** those left out
are `null`.
-/

namespace LoadTest.Config

/-- A stage as a JSON value. -/
def StageEntry.toJson (stage : StageEntry) : Json :=
  .ofMembers [("duration", .ofString stage.duration), ("target", .ofInt stage.target)]

/-- How identities are drawn, as a JSON value. -/
def UserIds.toJson (ids : UserIds) : Json :=
  .ofMembers [("base_modulo", .ofOption .ofWord ids.baseModulo),
    ("jitter_max", .ofOption .ofWord ids.jitterMax), ("multiplier", .ofOption .ofWord ids.multiplier)]

/-- A range as a JSON value. -/
def rangeJson (range : IdRange) : Json :=
  .ofMembers [("start", .ofWord range.start), ("end", .ofWord range.stop)]

/-- A scenario as a JSON value. -/
def ScenarioEntry.toJson : ScenarioEntry → Json
  | .couponIssue couponId userIds =>
      .ofMembers [("kind", .ofString "coupon-issue"), ("coupon_id", .ofOption .ofWord couponId),
        ("user_id", .ofOption UserIds.toJson userIds)]
  | .popularProducts hot cold hotProbability cacheHitThreshold =>
      .ofMembers [("kind", .ofString "popular-products"), ("hot", .ofOption rangeJson hot),
        ("cold", .ofOption rangeJson cold),
        ("hot_probability", .ofOption Json.ofDouble hotProbability),
        ("cache_hit_threshold", .ofOption Json.ofString cacheHitThreshold)]

/-- A threshold as a JSON value. -/
def ThresholdEntry.toJson : ThresholdEntry → Json
  | .bare expression => .ofString expression
  | .described expression description =>
      .ofMembers [("threshold", .ofString expression),
        ("description", .ofOption Json.ofString description)]

/-- The bounds of a pause as a JSON value. -/
def ThinkTimeEntry.toJson (think : ThinkTimeEntry) : Json :=
  .ofMembers [("min", .ofString think.min), ("max", .ofString think.max)]

/-- The probe of the stock as a JSON value. -/
def InventoryEntry.toJson (inventory : InventoryEntry) : Json :=
  .ofMembers [("enabled", .ofOption Json.bool inventory.enabled),
    ("path", .ofOption Json.ofString inventory.path), ("field", .ofOption Json.ofString inventory.field)]

/-- The configuration as a JSON value. -/
def toJson (config : Config) : Json :=
  .ofMembers [
    ("base_url", .ofOption Json.ofString config.baseUrl),
    ("scenario", .ofOption ScenarioEntry.toJson config.scenario),
    ("stages", .ofOption (fun stages => .array (stages.map StageEntry.toJson)) config.stages),
    ("thresholds", .ofOption
      (.ofTable fun entries => .array (entries.map ThresholdEntry.toJson)) config.thresholds),
    ("think_time", .ofOption ThinkTimeEntry.toJson config.thinkTime),
    ("request_timeout", .ofOption Json.ofString config.requestTimeout),
    ("tick", .ofOption Json.ofString config.tick),
    ("stop", .ofOption Json.ofString config.stop),
    ("iterations", .ofOption .ofWord config.iterations),
    ("abort_on_fail", .ofOption Json.bool config.abortOnFail),
    ("abort_delay", .ofOption Json.ofString config.abortDelay),
    ("threshold_interval", .ofOption Json.ofString config.thresholdInterval),
    ("health_check", .ofOption Json.ofString config.healthCheck),
    ("inventory", .ofOption InventoryEntry.toJson config.inventory),
    ("warmup", .ofOption Json.ofString config.warmup),
    ("tags", .ofOption (.ofTable Json.ofString) config.tags)]

end LoadTest.Config
