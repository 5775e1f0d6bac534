import LoadTest.Duration.Basic

/-!
# LoadTest.Metric.Percentile

Percentiles by linear interpolation between closest ranks. Of `n` ascending samples the percentile `p`
has the rank `p / 100 * (n - 1)`; **it lies between the samples below and above that rank,** and where
the rank is whole it is the sample there. No samples have percentile zero.
-/

namespace LoadTest.Metric

/-- Ranks stay below this number. -/
def rankBound : Nat := UInt64.size

/-- The percentage asked for, brought into the range from 0 to 100; `nan` counts as 0. -/
def clampPercent (p : Binary64) : Binary64 :=
  if p.isNaN then 0 else if p < 0 then 0 else if 100 < p then 100 else p

/-- The rank of a percentage among so many samples. -/
def rank (p : Binary64) (count : Nat) : Binary64 :=
  clampPercent p / 100 * Binary64.ofNat (count - 1)

/-- The point between two samples at the given part of the way, in seconds. -/
def between (lower upper part : Binary64) : Binary64 := lower + (upper - lower) * part

/-- The percentile of ascending samples; none if the point between two of them is no duration. -/
def percentile? (sorted : List Duration) (p : Binary64) : Option Duration :=
  if sorted.isEmpty then some .zero
  else
    let r := rank p sorted.length
    let below := r.toNatBelow rankBound
    let above := r.ceilBelow rankBound
    if below = above then sorted[below]?
    else do
      let lower ← sorted[below]?
      let upper ← sorted[above]?
      let point ← Duration.ofSeconds?
        (between lower.toSeconds upper.toSeconds (r - Binary64.ofNat below))
      pure (point.clamp lower upper)

/-- The percentile of ascending samples, where a point that is no duration counts as the last
sample. -/
def percentile (sorted : List Duration) (p : Binary64) : Duration :=
  (percentile? sorted p).getD (sorted.getLast?.getD .zero)

end LoadTest.Metric
