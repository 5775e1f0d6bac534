import LoadTest.ConfigError
import LoadTest.Workload.Random

/-!
# LoadTest.Workload.ThinkTime

The pause of a user between two iterations, drawn uniformly between two bounds. **Equal bounds leave
nothing to draw.** Bounds are drawn between as 64-bit numbers of nanoseconds.
-/

namespace LoadTest

/-- The bounds of a pause. -/
structure ThinkTime where
  min : Duration
  max : Duration
  deriving DecidableEq

namespace ThinkTime

/-- Pauses between two bounds that are in order. -/
def ofBounds (min max : Duration) : Except ConfigError ThinkTime :=
  if max < min then .error (.invalidValue "think_time" (.minAboveMax min max)) else .ok ⟨min, max⟩

/-- The next pause; none if the bounds, cut to 64 bits, are out of order. -/
def sample? (think : ThinkTime) (words : Workload.Words) : Option (Duration × Workload.Words) :=
  if think.max ≤ think.min then some (think.min, words)
  else do
    let (nanos, rest) ← words.inRange? (UInt64.ofNat think.min.nanos) (UInt64.ofNat think.max.nanos)
    pure (.ofNanosCapped nanos.toNat, rest)

/-- The bounds as shown to developers. -/
def describe (think : ThinkTime) : String :=
  "ThinkTime \x7b min: " ++ think.min.text ++ ", max: " ++ think.max.text ++ " \x7d"

end ThinkTime

end LoadTest
