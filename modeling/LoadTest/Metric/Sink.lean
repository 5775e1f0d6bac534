import LoadTest.Metric.Snapshot

/-!
# LoadTest.Metric.Sink

The series that a run records into. **All series are declared when the sink is built:** recording
under any other name changes nothing, and a name declared twice names one series. The three kinds have
separate name spaces.
-/

namespace LoadTest.Metric

/-- Declared series with what they have recorded so far. -/
structure Sink where
  counters : Table Counter
  rates : Table Rate
  trends : Table Trend

namespace Sink

/-- The number of shards of a trend if nothing else is said. -/
def defaultShards : Nat := 16

/-- One more series, empty so far. -/
def declare (shards : Nat) (sink : Sink) : String × Kind → Sink
  | (name, .counter) => { sink with counters := sink.counters.insert name .zero }
  | (name, .rate) => { sink with rates := sink.rates.insert name .zero }
  | (name, .trend) => { sink with trends := sink.trends.insert name (.ofShards shards) }

/-- The sink of a list of series. -/
def ofSeries (series : List (String × Kind)) (shards : Nat) : Sink :=
  series.foldl (declare shards) ⟨.empty, .empty, .empty⟩

/-- Adds to a counter. -/
def count (sink : Sink) (name : String) (n : UInt64) : Sink :=
  { sink with counters := sink.counters.modify name (·.add n) }

/-- Adds an observation to a rate. -/
def observe (sink : Sink) (name : String) (hit : Bool) : Sink :=
  { sink with rates := sink.rates.modify name (·.add hit) }

/-- Adds a sample to a trend. -/
def sample (sink : Sink) (name : String) (d : Duration) : Sink :=
  { sink with trends := sink.trends.modify name (·.add d) }

/-- The kind of the series of a name, with the same precedence as in a snapshot. -/
def kindOf? (sink : Sink) (name : String) : Option Kind :=
  if sink.counters.contains name then some .counter
  else if sink.rates.contains name then some .rate
  else if sink.trends.contains name then some .trend
  else none

/-- Every series as it stands; none if the samples of a trend cannot be summed up. -/
def snapshot? (sink : Sink) : Option Snapshot := do
  let trends ← sink.trends.mapM? fun trend => TrendSummary.ofSorted? trend.sorted
  pure ⟨sink.counters.map (·.value), sink.rates.map (·.summary), trends⟩

end Sink

end LoadTest.Metric
