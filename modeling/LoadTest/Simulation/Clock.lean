/-!
# LoadTest.Simulation.Clock

The clock of a simulated run, in nanoseconds. **The clock shows whole milliseconds only,** so whoever
waits until a time goes on at the first moment of the clock that is not before it.
-/

namespace LoadTest.Simulation

/-- The first whole millisecond that is not before a time. -/
def moment (time : Nat) : Nat := (time + 999_999) / 1_000_000 * 1_000_000

theorem le_moment (time : Nat) : time ≤ moment time := by
  unfold moment
  omega

end LoadTest.Simulation
