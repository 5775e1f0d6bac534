import LoadTest.Json.Writer
import LoadTest.Table

/-!
# LoadTest.Config.Schema

The form of a configuration, as a JSON schema for editors and other tools. **Properties are listed in
alphabetical order;** the definitions they refer to follow at the end, in the same order.
-/

namespace LoadTest.Config.Schema

/-- What a schema says of a value. -/
abbrev Part := List (String × Json)

/-- A value of one type. -/
def typed (type : String) : Part := [("type", .ofString type)]

/-- A value of one type, or none. -/
def nullable (type : String) : Part := [("type", .array [.ofString type, .ofString "null"])]

/-- Natural numbers of 64 bits. -/
def natural (part : Part) : Part :=
  part ++ [("format", .ofString "uint64"), ("minimum", .ofDouble 0)]

/-- A value that is left out counts as null. -/
def defaulted (part : Part) : Part := ("default", Json.null) :: part

/-- What a value is for. -/
def described (description : String) (part : Part) : Part :=
  ("description", .ofString description) :: part

/-- A value that is defined elsewhere. -/
def reference (name : String) : Part := [("$ref", .ofString ("#/definitions/" ++ name))]

/-- A value that has one of several forms. -/
def anyOf (parts : List Part) : Part := [("anyOf", .array (parts.map Json.ofMembers))]

/-- A value that is defined elsewhere, or none. -/
def optionalReference (name : String) : Part := anyOf [reference name, typed "null"]

/-- Parts under names, in alphabetical order. -/
def named (parts : List (String × Part)) : Json :=
  .ofMembers ((Table.ofList parts).entries.map fun (name, part) => (name, .ofMembers part))

/-- A record with some properties that have to be there. -/
def record (required : List String) (properties : List (String × Part)) : Part :=
  typed "object"
    ++ (if required.isEmpty then [] else [("required", .array (required.map Json.ofString))])
    ++ [("properties", named properties)]

/-- A text or none, and what it is for. -/
def textProperty (description : String) : Part := described description (nullable "string")

/-- The settings of a configuration. -/
def properties : List (String × Part) := [
  ("base_url", textProperty "Target service root (e.g. \"http://localhost:8080\")"),
  ("scenario", described "Which built-in scenario to run" (optionalReference "ScenarioConfig")),
  ("stages", described "Ramping schedule (k6: stages)"
    (nullable "array" ++ [("items", .ofMembers (reference "StageConfig"))])),
  ("thresholds", described "Pass/Fail criteria, metric name to k6-style expressions"
    (nullable "object" ++ [("additionalProperties",
      .ofMembers (typed "array" ++ [("items", .ofMembers (reference "ThresholdConfig"))]))])),
  ("think_time", described "Uniform pause between iterations" (optionalReference "ThinkTimeConfig")),
  ("request_timeout", textProperty "Per-request timeout (default: 10s)"),
  ("tick", textProperty "Scheduler reconciliation period (default: 100ms)"),
  ("stop", textProperty "Graceful shutdown wait time (default: 30s)"),
  ("iterations", described "Fixed number of iterations per VU" (natural (nullable "integer"))),
  ("abort_on_fail", described
    "Abort the test as soon as a threshold fails during periodic evaluation" (nullable "boolean")),
  ("abort_delay", textProperty
    "Schedule time before the first early-abort check (default: end of the first stage)"),
  ("threshold_interval", textProperty
    "How often thresholds are checked when abort_on_fail is set (default: 5s)"),
  ("health_check", textProperty
    "Path that must answer 200 before load starts; \"\" disables the scenario default"),
  ("inventory", described "Stock probe read before and after the run"
    (optionalReference "InventoryConfig")),
  ("warmup", textProperty "Target URL to warmup connections before starting"),
  ("tags", described "Tags carried into the report"
    (nullable "object" ++ [("additionalProperties", .ofMembers (typed "string"))]))]

/-- The name of a scenario. -/
def scenarioKind (name : String) : Part := typed "string" ++ [("enum", .array [.ofString name])]

/-- A range of identities. -/
def idRange : Part :=
  described "Inclusive id range with `start <= end`."
    (record ["end", "start"]
      [("start", natural (typed "integer")), ("end", natural (typed "integer"))])

/-- The probe of the stock. -/
def inventory : Part :=
  record [] [
    ("enabled", described "Set to false to skip the before/after probe" (nullable "boolean")),
    ("path", textProperty
      "Path under the base URL (default for coupons: /api/coupons/\x7bcoupon_id\x7d)"),
    ("field", textProperty "Integer JSON field holding the quantity (default: quantity)")]

/-- The coupon scenario. -/
def couponIssue : Part :=
  described "POST /coupons/\x7bcoupon_id\x7d/issue"
    (record ["kind"] [
      ("kind", scenarioKind "coupon-issue"),
      ("coupon_id", defaulted (natural (nullable "integer"))),
      ("user_id", defaulted (optionalReference "UserIdConfig"))])

/-- The product scenario. -/
def popularProducts : Part :=
  described "GET /products/\x7bid\x7d with a hot/cold id split"
    (record ["kind"] [
      ("kind", scenarioKind "popular-products"),
      ("hot", defaulted (optionalReference "IdRange")),
      ("cold", defaulted (optionalReference "IdRange")),
      ("hot_probability", defaulted (nullable "number" ++ [("format", .ofString "double")])),
      ("cache_hit_threshold", described
        "Latency under which a response counts as an estimated cache hit"
        (defaulted (nullable "string")))])

/-- A stage. -/
def stage : Part :=
  record ["duration", "target"] [
    ("duration", described "Stage length (e.g. \"15s\", \"1m\")" (typed "string")),
    ("target", described "VU count to reach by the end of the stage"
      (typed "integer" ++ [("format", .ofString "int64")]))]

/-- The pause between two iterations. -/
def thinkTime : Part := record ["max", "min"] [("min", typed "string"), ("max", typed "string")]

/-- A threshold. -/
def threshold : Part :=
  described "A threshold expression, either bare (`\"p(95)<300\"`) or with a description."
    (anyOf [typed "string", record ["threshold"] [
      ("threshold", typed "string"), ("description", defaulted (nullable "string"))]])

/-- How user identities are drawn. -/
def userIds : Part :=
  described ("User identity policy for the coupon scenario: "
      ++ "`(vu % base_modulo) + 1 + rand(0..=jitter_max) * multiplier`")
    (record [] [
      ("base_modulo", natural (nullable "integer")), ("jitter_max", natural (nullable "integer")),
      ("multiplier", natural (nullable "integer"))])

/-- The definitions that properties refer to. -/
def definitions : List (String × Part) := [
  ("IdRange", idRange), ("InventoryConfig", inventory),
  ("ScenarioConfig", [("oneOf", .array ([couponIssue, popularProducts].map Json.ofMembers))]),
  ("StageConfig", stage), ("ThinkTimeConfig", thinkTime), ("ThresholdConfig", threshold),
  ("UserIdConfig", userIds)]

/-- The schema of a configuration. -/
def json : Json :=
  .ofMembers ([("$schema", .ofString "http://json-schema.org/draft-07/schema#"),
    ("title", .ofString "Config")] ++ record [] properties ++ [("definitions", named definitions)])

/-- The schema of a configuration, a line for each part. -/
def text : String := json.pretty

end LoadTest.Config.Schema
