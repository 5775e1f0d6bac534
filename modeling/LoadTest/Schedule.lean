import LoadTest.ConfigError
import LoadTest.Json.Value

/-!
# LoadTest.Schedule

How many users a run has at each time. **Over a stage the number moves in a straight line** from the
target of the stage before it, zero at first, to its own; a stage without length makes it jump. The type
says that there is a stage and that all of them together are a duration.
-/

namespace LoadTest

/-- A piece of the timeline. -/
structure Stage where
  duration : Duration
  target : Nat
  deriving DecidableEq

/-- A timeline of stages. -/
structure Schedule where
  stages : List Stage
  nonempty : stages ≠ []
  fits : Duration.totalNanos (stages.map (·.duration)) < Duration.limit
  deriving DecidableEq

namespace Schedule

/-- The schedule of a list of stages. -/
def ofStages (stages : List Stage) : Except ConfigError Schedule :=
  if h : stages = [] then .error (.invalidStages .empty)
  else if fits : Duration.totalNanos (stages.map (·.duration)) < Duration.limit then .ok ⟨stages, h, fits⟩
  else .error (.invalidStages .tooLong)

/-- The length of all stages together. -/
def total (schedule : Schedule) : Duration :=
  ⟨Duration.totalNanos (schedule.stages.map (·.duration)), schedule.fits⟩

/-- The greatest target. -/
def maxTarget (schedule : Schedule) : Nat := (schedule.stages.map (·.target)).foldl max 0

/-- The length of the first stage. -/
def firstDuration (schedule : Schedule) : Duration := (schedule.stages.head schedule.nonempty).duration

/-- Whether the last stage has ended. -/
def isFinished (schedule : Schedule) (elapsed : Duration) : Bool := decide (schedule.total ≤ elapsed)

/-- A point on the line between two targets, `elapsed` into a stage, without its fraction. -/
def interpolate (before : Nat) (stage : Stage) (elapsed : Duration) : Nat :=
  let progress := elapsed.toSeconds / stage.duration.toSeconds
  let difference := Binary64.ofNat stage.target - Binary64.ofNat before
  (Binary64.ofNat before + difference * progress).toNatBelow UInt64.size

/-- The number of users `elapsed` into a list of stages that `previous` users were there before; zero
behind the last stage. -/
def targetIn (previous : Nat) : List Stage → Duration → Nat
  | [], _ => 0
  | stage :: stages, elapsed =>
      if elapsed < stage.duration then interpolate previous stage elapsed
      else targetIn stage.target stages (elapsed.minus stage.duration)

/-- The number of users at a time. -/
def targetAt (schedule : Schedule) (elapsed : Duration) : Nat := targetIn 0 schedule.stages elapsed

/-- The schedule as a JSON value. -/
def toJson (schedule : Schedule) : Json :=
  .ofMembers [("stages", .array (schedule.stages.map fun stage =>
    .ofMembers [
      ("duration", .ofMembers [("secs", .ofNat stage.duration.seconds),
        ("nanos", .ofNat stage.duration.subsecond)]),
      ("target", .ofNat stage.target)]))]

end Schedule

end LoadTest
