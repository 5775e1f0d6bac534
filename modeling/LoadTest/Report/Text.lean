import LoadTest.Report.Basic

/-!
# LoadTest.Report.Text

A report for people: the summary printed at the end of a run. Parts about which there is nothing to say
are left out.
-/

namespace LoadTest.Report

open LoadTest.Metric

/-- A time in milliseconds, to two places. -/
def millisText (x : Binary64) : String := x.fixedText 2 ++ "ms"

/-- The lines that begin the summary. -/
def headLines (r : Report) : List String :=
  ["", "--- Test Summary: " ++ r.scenario ++ " ---"]
    ++ (if r.tags.entries.isEmpty then []
      else ["Tags:           " ++ ", ".intercalate (r.tags.entries.map fun (k, v) => k ++ "=" ++ v)])
    ++ ["Started:        " ++ r.startedAt,
      "Duration:       " ++ (Duration.ofMillis r.runMillis.toNat).text,
      "Peak VUs:       " ++ toString r.peakUsers,
      "Iterations:     " ++ toString r.iterations]
    ++ (if r.aborted then ["Run aborted early."] else [])

/-- The lines on the latency of all requests. -/
def latencyLines (t : TrendSummary) : List String :=
  [("Avg Latency:    ", t.avg), ("Min Latency:    ", t.min), ("Max Latency:    ", t.max),
    ("P50 Latency:    ", t.med), ("P90 Latency:    ", t.p90), ("P95 Latency:    ", t.p95),
    ("P99 Latency:    ", t.p99)].map fun (label, x) => label ++ millisText x

/-- The lines on requests. -/
def requestLines (r : Report) : List String :=
  let requests := r.metrics.counter "http_reqs"
  if requests = 0 then ["No requests completed."]
  else
    ("Total Requests: " ++ toString requests)
      :: ((r.metrics.trends.find? "http_req_duration").map latencyLines).getD []

/-- A heading and the lines under it, or nothing if there are none. -/
def part (heading : String) (lines : List String) : List String :=
  if lines.isEmpty then [] else "" :: heading :: lines

/-- The line of a trend. -/
def trendLine (name : String) (t : TrendSummary) : String :=
  "  " ++ name ++ ": avg=" ++ millisText t.avg ++ ", p95=" ++ millisText t.p95 ++ ", p99="
    ++ millisText t.p99 ++ ", count=" ++ toString t.count

/-- The line of a rate, in percent. -/
def rateLine (name : String) (rate : RateSummary) : String :=
  "  " ++ name ++ ": " ++ (rate.rate * 100).fixedText 2 ++ "% (" ++ toString rate.hits ++ "/"
    ++ toString rate.total ++ ")"

/-- The lines of an inventory. -/
def inventoryLines (i : Inventory) : List String :=
  ["  before:   " ++ toString i.before, "  after:    " ++ toString i.after,
    "  consumed: " ++ toString i.consumed]

/-- The lines of a criterion. -/
def resultLines (t : Threshold.Result) : List String :=
  let observed := (t.observed.map fun x => x.fixedText 4).getD "n/a"
  ["  " ++ (if t.passed then "✓" else "✗") ++ " " ++ t.metric ++ ": " ++ t.source ++ " (actual: "
      ++ observed ++ ")"]
    ++ (t.description.map fun d => "      " ++ d).toList

/-- All lines of the summary. -/
def lines (r : Report) : List String :=
  headLines r ++ requestLines r
    ++ part "Outcomes:" (r.outcomes.entries.map fun (name, n) => "  " ++ name ++ ": " ++ toString n)
    ++ part "Trends:" ((r.metrics.trends.entries.filter fun entry => entry.1 ≠ "http_req_duration").map
      fun (name, t) => trendLine name t)
    ++ part "Rates:" (r.metrics.rates.entries.map fun (name, rate) => rateLine name rate)
    ++ part "Inventory:" ((r.inventory.map inventoryLines).getD [])
    ++ part "Thresholds:" (r.thresholds.flatMap resultLines)
    ++ ["", "Result: " ++ (if r.passed then "PASSED" else "FAILED"), "--------------------"]

/-- The summary. -/
def text (r : Report) : String := String.join (r.lines.map (· ++ "\n"))

end LoadTest.Report
