import LoadTest.Metric.Percentile

/-!
# LoadTest.Metric.Series

The three kinds of series a run records: totals, shares of observations that held, and collections of
durations. A trend deals its samples out to its shards in turn; **what it holds is the samples of all
shards,** in ascending order.
-/

namespace LoadTest.Metric

/-- The kinds of series. -/
inductive Kind where
  | counter
  | rate
  | trend
  deriving DecidableEq, Repr

/-- The kind in lower case. -/
def Kind.name : Kind → String
  | .counter => "counter"
  | .rate => "rate"
  | .trend => "trend"

/-- The kind as messages call it. -/
def Kind.title : Kind → String
  | .counter => "Counter"
  | .rate => "Rate"
  | .trend => "Trend"

/-- The kind with a name in lower case. -/
def Kind.ofName? (name : String) : Option Kind :=
  [Kind.counter, .rate, .trend].find? fun kind => kind.name == name

/-! ### Counters -/

/-- A total, which wraps at `2 ^ 64`. -/
structure Counter where
  value : UInt64
  deriving DecidableEq

namespace Counter

/-- A total of nothing. -/
def zero : Counter := ⟨0⟩

/-- The total with `n` more. -/
def add (c : Counter) (n : UInt64) : Counter := ⟨c.value + n⟩

end Counter

/-! ### Rates -/

/-- How often something was observed, and how often it held. -/
structure Rate where
  hits : UInt64
  observed : UInt64
  deriving DecidableEq

namespace Rate

/-- No observation yet. -/
def zero : Rate := ⟨0, 0⟩

/-- One more observation. -/
def add (r : Rate) (hit : Bool) : Rate := ⟨if hit then r.hits + 1 else r.hits, r.observed + 1⟩

/-- The number of observations, which is at least that of the hits. -/
def total (r : Rate) : UInt64 := max r.observed r.hits

/-- The share of hits; zero before the first observation. -/
def share (hits total : UInt64) : Binary64 :=
  if total = 0 then 0 else Binary64.ofNat hits.toNat / Binary64.ofNat total.toNat

/-- The share of observations that held. -/
def value (r : Rate) : Binary64 := share r.hits r.total

end Rate

/-! ### Trends -/

/-- Durations, dealt out to shards; `turns` counts the samples dealt so far, modulo `2 ^ 64`. -/
structure Trend where
  shards : List (List Duration)
  turns : UInt64

namespace Trend

/-- A trend of so many shards, of one at least. -/
def ofShards (n : Nat) : Trend := ⟨List.replicate (max n 1) [], 0⟩

/-- One more sample, for the shard whose turn it is. -/
def add (t : Trend) (sample : Duration) : Trend :=
  ⟨t.shards.modify (t.turns.toNat % t.shards.length) (sample :: ·), t.turns + 1⟩

/-- All samples, by shard. -/
def samples (t : Trend) : List Duration := t.shards.flatten

/-- The number of samples. -/
def size (t : Trend) : Nat := t.shards.foldr (fun shard n => shard.length + n) 0

/-- All samples in ascending order. -/
def sorted (t : Trend) : List Duration := t.samples.mergeSort fun a b => decide (a ≤ b)

/-- The number of shards and of samples, as shown to developers. -/
def describe (t : Trend) : String :=
  "Trend \x7b shards: " ++ toString t.shards.length ++ ", len: " ++ toString t.size ++ " \x7d"

end Trend

end LoadTest.Metric
