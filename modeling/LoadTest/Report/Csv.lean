import LoadTest.Report.Basic

/-!
# LoadTest.Report.Csv

A report as a table of three columns: a name, what kind of number it is, and the number. **Names are
not quoted.** A criterion is named after its expression, with comparison signs spelt out.
-/

namespace LoadTest.Report

open LoadTest.Metric

/-- A row of the table. -/
structure Row where
  name : String
  kind : String
  value : String
  deriving DecidableEq

/-- The row as a line. -/
def Row.line (row : Row) : String := row.name ++ "," ++ row.kind ++ "," ++ row.value ++ "\n"

/-- Replaces each occurrence of `old`, from left to right, by `new`. The fuel is the length of the
text. -/
def replaceFrom (old new : List Char) : Nat → List Char → List Char
  | _, [] => []
  | 0, cs => cs
  | fuel + 1, c :: cs =>
      if old.isPrefixOf (c :: cs) then new ++ replaceFrom old new fuel ((c :: cs).drop old.length)
      else c :: replaceFrom old new fuel cs

/-- Replaces each occurrence of a text that is not empty. -/
def replace (old new : String) (cs : List Char) : List Char :=
  replaceFrom old.toList new.toList cs.length cs

/-- The comparison signs and their names; longer signs go first. -/
def signNames : List (String × String) :=
  [("<=", "_le_"), (">=", "_ge_"), ("<", "_lt_"), (">", "_gt_"), ("==", "_eq_")]

/-- The name of a criterion: no spaces, no parentheses, signs spelt out. -/
def criterionName (metric source : String) : String :=
  let kept := (metric ++ "_" ++ source).toList.filter fun c => c ≠ ' ' ∧ c ≠ '(' ∧ c ≠ ')'
  String.ofList (signNames.foldl (fun cs (sign, name) => replace sign name cs) kept)

/-- The rows of a trend. -/
def trendRows (name : String) (t : TrendSummary) : List Row :=
  ⟨name ++ "_count", "counter", toString t.count⟩
    :: t.figures.map fun (figure, x) => ⟨name ++ "_" ++ figure, "gauge", x.fixedText 3⟩

/-- The rows of a report. -/
def rows (r : Report) : List Row :=
  [⟨"iterations", "counter", toString r.iterations⟩, ⟨"peak_vus", "gauge", toString r.peakUsers⟩,
    ⟨"run_duration_ms", "gauge", toString r.runMillis⟩]
    ++ r.outcomes.entries.map (fun (name, n) => ⟨"outcome_" ++ name, "counter", toString n⟩)
    ++ r.metrics.counters.entries.map (fun (name, n) => ⟨name, "counter", toString n⟩)
    ++ r.metrics.rates.entries.map (fun (name, x) => ⟨name ++ "_rate", "gauge", x.rate.fixedText 4⟩)
    ++ r.metrics.trends.entries.flatMap (fun (name, t) => trendRows name t)
    ++ (r.inventory.map fun i => ⟨"inventory_consumed", "gauge", toString i.consumed⟩).toList
    ++ r.thresholds.map fun t =>
      ⟨"threshold_" ++ criterionName t.metric t.source, "check", if t.passed then "1" else "0"⟩

/-- The table with its heading. -/
def csv (r : Report) : String :=
  "metric_name,metric_type,value\n" ++ String.join (r.rows.map Row.line)

end LoadTest.Report
