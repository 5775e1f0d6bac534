import LoadTest.Probe
import LoadTest.Report.Basic
import LoadTest.Simulation.Crowd

/-!
# LoadTest.Simulation.State

How far a run has come. A run goes through its phases in one order: health check, connections in advance,
a look at the stock, the load itself, waiting for users that have not ended, another look at the stock,
and the report. **Only a health check that fails keeps the load from starting.**
-/

namespace LoadTest.Simulation

/-- What came of a run. -/
inductive Outcome where
  | reported (report : Report)
  /-- The target was not healthy, and nothing was started. -/
  | unhealthy (error : ProbeError)
  /-- The sink lacks a series. -/
  | missingSeries (error : ConfigError)
  /-- What was recorded cannot be summed up, or the difference of two stocks is out of range. -/
  | overflowed

/-- What is known about the load while it goes on, and after. -/
structure Load where
  /-- When the load began. -/
  start : Nat
  /-- When the thresholds were last checked; at first, when the load began. -/
  lastCheck : Nat
  /-- The stock before, if it could be read. -/
  stockBefore : Option Int
  /-- The most users that counted toward the target at a look at the schedule. -/
  peak : Nat := 0
  /-- Whether the run was cancelled when its load ended. -/
  aborted : Bool := false

/-- Where a run is. -/
inductive Phase where
  /-- Waiting for the health check of an address. -/
  | checking (url : String) (exchange : Exchange) (due : Nat)
  /-- Waiting for connections in advance. -/
  | warming (due : Nat)
  /-- Waiting for the stock before the load. -/
  | stocking (url field : String) (exchange : Exchange) (due : Nat)
  /-- Under load; the schedule is looked at next at the first moment not before `tick`. -/
  | loading (load : Load) (tick : Nat)
  /-- Waiting for users until a deadline. -/
  | draining (load : Load) (deadline : Nat)
  /-- Waiting for the stock after a load that lasted so long. -/
  | restocking (load : Load) (lasted active : Duration) (url field : String) (exchange : Exchange)
      (due : Nat)
  | ended (outcome : Outcome)

/-- The time for which a phase waits. -/
def Phase.due? : Phase → Option Nat
  | .checking _ _ due => some due
  | .warming due => some due
  | .stocking _ _ _ due => some due
  | .loading _ tick => some (moment tick)
  | .draining _ deadline => some deadline
  | .restocking _ _ _ _ _ _ due => some due
  | .ended _ => none

/-- Whether the run has ended. -/
def Phase.isEnded : Phase → Bool
  | .ended _ => true
  | _ => false

/-- A run at one moment. -/
structure State where
  crowd : Crowd
  phase : Phase
  /-- Commands received and not yet followed. -/
  inbox : List Command := []
  /-- Commands still to come, with their times in ascending order. -/
  upcoming : List (Nat × Command) := []
  /-- When the run is cancelled from outside, if that is still to come. -/
  cancelAt : Option Nat := none
  /-- The number of users as shown to others: that of the last look at the schedule. -/
  shownLive : Nat := 0

namespace State

/-- Changes what the users share. -/
def withCrowd (state : State) (f : Crowd → Crowd) : State := { state with crowd := f state.crowd }

/-- The run with an outcome. -/
def endWith (state : State) (outcome : Outcome) : State := { state with phase := .ended outcome }

/-- What came of the run, if it has ended. -/
def outcome? (state : State) : Option Outcome :=
  match state.phase with
  | .ended outcome => some outcome
  | _ => none

/-- The iterations recorded so far. -/
def iterations (state : State) : UInt64 :=
  ((state.crowd.sink.counters.find? "iterations").map (·.value)).getD 0

end State

end LoadTest.Simulation
