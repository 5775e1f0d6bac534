import LoadTest.Metric.Series
import LoadTest.Table

/-!
# LoadTest.Metric.Snapshot

What every series of a run held at one moment. A trend is summed up in milliseconds; **a summary taken
from a run keeps its samples and knows every percentile, one read back from a report knows only those
it names.**
-/

namespace LoadTest.Metric

/-- A rate at one moment. -/
structure RateSummary where
  hits : UInt64
  total : UInt64
  rate : Binary64
  deriving DecidableEq

/-- A rate as it stands. -/
def Rate.summary (r : Rate) : RateSummary := ⟨r.hits, r.total, r.value⟩

/-- A trend at one moment, in milliseconds. `sorted` holds the samples, if they are known. -/
structure TrendSummary where
  count : UInt64
  avg : Binary64
  min : Binary64
  med : Binary64
  max : Binary64
  p90 : Binary64
  p95 : Binary64
  p99 : Binary64
  sorted : List Duration
  deriving DecidableEq

namespace TrendSummary

/-- The summary of ascending samples; none if their sum or one of the percentiles is no duration. -/
def ofSorted? (sorted : List Duration) : Option TrendSummary := do
  let count := sorted.length
  let total ← Duration.sum? sorted
  let med ← percentile? sorted 50
  let p90 ← percentile? sorted 90
  let p95 ← percentile? sorted 95
  let p99 ← percentile? sorted 99
  pure {
    count := UInt64.ofNat count
    avg := if 0 < count then total.toMillis / Binary64.ofNat count else 0
    min := (sorted.head?.map Duration.toMillis).getD 0
    med := med.toMillis
    max := (sorted.getLast?.map Duration.toMillis).getD 0
    p90 := p90.toMillis
    p95 := p95.toMillis
    p99 := p99.toMillis
    sorted }

/-- The percentile that a summary without samples names: the median, three high ones, and the ends.
Any percentile of nothing is zero. -/
def stored? (t : TrendSummary) (p : Binary64) : Option Binary64 :=
  if p.eq 50 then some t.med
  else if p.eq 90 then some t.p90
  else if p.eq 95 then some t.p95
  else if p.eq 99 then some t.p99
  else if 100 ≤ p then some t.max
  else if p ≤ 0 then some t.min
  else if t.count = 0 then some 0
  else none

/-- A percentile in milliseconds, if it is known. -/
def percentile? (t : TrendSummary) (p : Binary64) : Option Binary64 :=
  if t.sorted.isEmpty then t.stored? p else some (percentile t.sorted p).toMillis

end TrendSummary

/-- Every series at one moment. -/
structure Snapshot where
  counters : Table UInt64
  rates : Table RateSummary
  trends : Table TrendSummary

namespace Snapshot

/-- The kind of the series of a name: a counter hides a rate of the same name, and both a trend. -/
def kindOf? (s : Snapshot) (name : String) : Option Kind :=
  if s.counters.contains name then some .counter
  else if s.rates.contains name then some .rate
  else if s.trends.contains name then some .trend
  else none

/-- The total of a counter, zero if there is none of that name. -/
def counter (s : Snapshot) (name : String) : UInt64 := (s.counters.find? name).getD 0

/-- The value of a rate, zero if there is none of that name. -/
def rate (s : Snapshot) (name : String) : Binary64 := ((s.rates.find? name).map (·.rate)).getD 0

end Snapshot

end LoadTest.Metric
