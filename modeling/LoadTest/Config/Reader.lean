import LoadTest.Config.Basic
import LoadTest.Format.Source

/-!
# LoadTest.Config.Reader

Configurations from a data format. Most settings have two spellings, and unknown ones are skipped. **The
settings of a scenario and a threshold are read from what their values say of themselves,** since only
that tells which form they have.
-/

namespace LoadTest.Config

open Format

section

variable {σ : Type} [Source σ]

/-- A stage: how long it lasts and where it leads. -/
def readStage? (value : σ) : Option StageEntry := do
  let record ← Record.ofSource? [⟨"duration", []⟩, ⟨"target", []⟩] value
  pure {
    duration := ← record.required? "duration" text?
    target := ← record.required? "target" signed? }

/-- The bounds of a pause. -/
def readThinkTime? (value : σ) : Option ThinkTimeEntry := do
  let record ← Record.ofSource? [⟨"min", []⟩, ⟨"max", []⟩] value
  pure {
    min := ← record.required? "min" text?
    max := ← record.required? "max" text? }

/-- The probe of the stock. -/
def readInventory? (value : σ) : Option InventoryEntry := do
  let record ← Record.ofSource? [⟨"enabled", []⟩, ⟨"path", []⟩, ⟨"field", []⟩] value
  pure {
    enabled := ← record.maybe? "enabled" bool?
    path := ← record.maybe? "path" text?
    field := ← record.maybe? "field" text? }

end

/-! ### Scenarios -/

/-- How user identities are drawn. -/
def readUserIds? (value : Content) : Option UserIds := do
  let record ← Record.ofSource? [⟨"base_modulo", []⟩, ⟨"jitter_max", []⟩, ⟨"multiplier", []⟩] value
  pure {
    baseModulo := ← record.maybe? "base_modulo" word?
    jitterMax := ← record.maybe? "jitter_max" word?
    multiplier := ← record.maybe? "multiplier" word? }

/-- A range of identities. -/
def readIdRange? (value : Content) : Option IdRange := do
  let record ← Record.ofSource? [⟨"start", []⟩, ⟨"end", []⟩] value
  pure {
    start := ← record.required? "start" word?
    stop := ← record.required? "end" word? }

/-- The settings of a scenario, without its name. -/
def readSettings? (kind : String) (settings : Content) : Option ScenarioEntry :=
  if kind = "coupon-issue" then do
    let record ← Record.ofSource? [⟨"coupon_id", ["couponId"]⟩, ⟨"user_id", []⟩] settings
    pure (.couponIssue
      (← record.withDefault? "coupon_id" none (optional? word?))
      (← record.withDefault? "user_id" none (optional? readUserIds?)))
  else if kind = "popular-products" then do
    let record ← Record.ofSource?
      [⟨"hot", []⟩, ⟨"cold", []⟩, ⟨"hot_probability", []⟩, ⟨"cache_hit_threshold", []⟩] settings
    pure (.popularProducts
      (← record.withDefault? "hot" none (optional? readIdRange?))
      (← record.withDefault? "cold" none (optional? readIdRange?))
      (← record.withDefault? "hot_probability" none (optional? double?))
      (← record.withDefault? "cache_hit_threshold" none (optional? text?)))
  else none

/-- Whether a key is the one that names the scenario. -/
def isKind : Content → Bool
  | .text key => key == "kind"
  | _ => false

/-- A scenario: its name under `kind`, or first in a row, and its settings beside it. -/
def readScenario? {σ : Type} [Source σ] (value : σ) : Option ScenarioEntry := do
  match ← parts? value with
  | .members members =>
      match members.filter fun member => isKind member.1 with
      | [(_, kind)] =>
          let kind ← text? kind
          let settings ← (members.filter fun member => !isKind member.1).mapM fun (key, setting) =>
            (content? 2 setting).map fun setting => (key, setting)
          readSettings? kind (.map settings)
      | _ => none
  | .items (kind :: settings) =>
      let kind ← text? kind
      let settings ← settings.mapM (content? 2)
      readSettings? kind (.list settings)
  | .items [] => none

/-! ### Thresholds -/

/-- A threshold: its expression alone, or a record of expression and description. -/
def readThreshold? : Content → Option ThresholdEntry
  | .text expression => some (.bare expression)
  | .map members => do
      let record ← Record.ofMembers? [⟨"threshold", []⟩, ⟨"description", []⟩] members
      pure (.described
        (← record.required? "threshold" text?)
        (← record.withDefault? "description" none (optional? text?)))
  | _ => none

/-! ### The whole -/

/-- The settings of a configuration, in the order of its row form. -/
def fields : List Field := [
  ⟨"base_url", ["baseUrl"]⟩, ⟨"scenario", []⟩, ⟨"stages", ["schedule"]⟩, ⟨"thresholds", ["criteria"]⟩,
  ⟨"think_time", ["thinkTime"]⟩, ⟨"request_timeout", ["requestTimeout"]⟩, ⟨"tick", []⟩, ⟨"stop", []⟩,
  ⟨"iterations", []⟩, ⟨"abort_on_fail", ["abortOnFail"]⟩, ⟨"abort_delay", ["abortDelay"]⟩,
  ⟨"threshold_interval", ["thresholdInterval"]⟩, ⟨"health_check", ["healthCheck"]⟩,
  ⟨"inventory", []⟩, ⟨"warmup", []⟩, ⟨"tags", []⟩]

/-- The configuration that a value describes. -/
def read? {σ : Type} [Source σ] (value : σ) : Option Config := do
  let record ← Record.ofSource? fields value
  let thresholds (value : σ) := (entries? (list? fun entry : σ =>
    (content? 3 entry).bind readThreshold?) value).map Table.ofList
  pure {
    baseUrl := ← record.maybe? "base_url" text?
    scenario := ← record.maybe? "scenario" readScenario?
    stages := ← record.maybe? "stages" (list? readStage?)
    thresholds := ← record.maybe? "thresholds" thresholds
    thinkTime := ← record.maybe? "think_time" readThinkTime?
    requestTimeout := ← record.maybe? "request_timeout" text?
    tick := ← record.maybe? "tick" text?
    stop := ← record.maybe? "stop" text?
    iterations := ← record.maybe? "iterations" word?
    abortOnFail := ← record.maybe? "abort_on_fail" bool?
    abortDelay := ← record.maybe? "abort_delay" text?
    thresholdInterval := ← record.maybe? "threshold_interval" text?
    healthCheck := ← record.maybe? "health_check" text?
    inventory := ← record.maybe? "inventory" readInventory?
    warmup := ← record.maybe? "warmup" text?
    tags := ← record.maybe? "tags" fun value : σ => (entries? text? value).map Table.ofList }

end LoadTest.Config
