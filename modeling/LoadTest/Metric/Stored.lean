import LoadTest.Format.Json
import LoadTest.Json.Writer
import LoadTest.Metric.Snapshot

/-!
# LoadTest.Metric.Stored

Snapshots as JSON. **The samples of a trend are not written,** so a snapshot that is read back has the
same series and figures and no samples.
-/

namespace LoadTest.Metric

open LoadTest.Format

/-- A table of values of one kind; the last value of a key counts. -/
def table? {σ α : Type} [Source σ] (read : σ → Option α) (value : σ) : Option (Table α) :=
  (entries? read value).map Table.ofList

/-- A rate as a JSON value. -/
def RateSummary.toJson (r : RateSummary) : Json :=
  Json.ofMembers
    [("hits", Json.ofWord r.hits), ("total", Json.ofWord r.total), ("rate", Json.ofDouble r.rate)]

/-- The rate that a JSON value describes. -/
def RateSummary.ofJson? (json : Json) : Option RateSummary := do
  let record ← Record.ofSource? [⟨"hits", []⟩, ⟨"total", []⟩, ⟨"rate", []⟩] json
  pure ⟨← record.required? "hits" word?, ← record.required? "total" word?,
    ← record.required? "rate" double?⟩

/-- The figures of a trend with their names, in the order in which they are written. -/
def TrendSummary.figures (t : TrendSummary) : List (String × Binary64) :=
  [("avg", t.avg), ("min", t.min), ("med", t.med), ("max", t.max), ("p90", t.p90), ("p95", t.p95),
    ("p99", t.p99)]

/-- A trend as a JSON value. -/
def TrendSummary.toJson (t : TrendSummary) : Json :=
  Json.ofMembers
    (("count", Json.ofWord t.count) :: t.figures.map fun (name, x) => (name, Json.ofDouble x))

/-- The trend that a JSON value describes. -/
def TrendSummary.ofJson? (json : Json) : Option TrendSummary := do
  let names := ["count", "avg", "min", "med", "max", "p90", "p95", "p99"]
  let record ← Record.ofSource? (names.map fun name => ⟨name, []⟩) json
  let figure (name : String) : Option Binary64 := record.required? name double?
  pure {
    count := ← record.required? "count" word?
    avg := ← figure "avg"
    min := ← figure "min"
    med := ← figure "med"
    max := ← figure "max"
    p90 := ← figure "p90"
    p95 := ← figure "p95"
    p99 := ← figure "p99"
    sorted := [] }

namespace Snapshot

/-- A snapshot as a JSON value. -/
def toJson (s : Snapshot) : Json :=
  Json.ofMembers
    [("counters", Json.ofTable Json.ofWord s.counters), ("rates", Json.ofTable RateSummary.toJson s.rates),
      ("trends", Json.ofTable TrendSummary.toJson s.trends)]

/-- The snapshot that a JSON value describes. -/
def ofJson? (json : Json) : Option Snapshot := do
  let record ← Record.ofSource? [⟨"counters", []⟩, ⟨"rates", []⟩, ⟨"trends", []⟩] json
  pure ⟨← record.required? "counters" (table? word?),
    ← record.required? "rates" (table? RateSummary.ofJson?),
    ← record.required? "trends" (table? TrendSummary.ofJson?)⟩

end Snapshot

end LoadTest.Metric
