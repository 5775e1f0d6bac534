import LoadTest.Control
import LoadTest.Plan
import LoadTest.Simulation.Clock

/-!
# LoadTest.Simulation.User

A virtual user: one who sends requests one after the other and pauses in between. **A user looks whether
it should stop, and whether the run is paused, before each request and never during one;** a request
that has been sent is waited for.
-/

namespace LoadTest.Simulation

/-- What a user is doing. -/
inductive Activity where
  /-- Nothing yet. -/
  | idle
  /-- About to begin an iteration. -/
  | ready
  /-- Waiting while the run is paused; it had been resumed so many times. -/
  | paused (resumes : Nat)
  /-- Waiting until `due` for what becomes of a request. -/
  | sending (parameters : Parameters) (exchange : Exchange) (due : Nat)
  /-- Pausing between two iterations. -/
  | thinking (due : Nat)
  /-- Done. -/
  | stopped
  /-- Ended by a draw from an empty range. -/
  | crashed
  /-- Ended from outside. -/
  | aborted
  deriving DecidableEq

namespace Activity

/-- Whether there is nothing left to do. -/
def isOver : Activity → Bool
  | .stopped | .crashed | .aborted => true
  | _ => false

/-- Whether a user who does this counts as running: it has begun and not stopped of its own. -/
def isRunning : Activity → Bool
  | .idle | .stopped => false
  | _ => true

/-- The time for which the activity waits, if it waits for one. -/
def due? : Activity → Option Nat
  | .sending _ _ due => some due
  | .thinking due => some due
  | _ => none

end Activity

/-- A virtual user. -/
structure User where
  id : Nat
  activity : Activity := .idle
  /-- Whether it has been told to stop. -/
  told : Bool := false
  /-- How many iterations it has recorded. -/
  completed : Nat := 0
  /-- What it draws from. -/
  words : Workload.Words
  deriving DecidableEq

namespace User

/-- Whether a user can go on at a time, in a run that is or is not cancelled. -/
def canStep (now : Nat) (control : Control) (cancelled : Bool) (user : User) : Bool :=
  match user.activity with
  | .idle | .ready => true
  | .paused resumes => user.told || cancelled || control.resumes != resumes
  | .sending _ _ due => decide (due ≤ now)
  | .thinking due => user.told || cancelled || decide (due ≤ now)
  | .stopped | .crashed | .aborted => false

/-- Whether a user has done all iterations of its limit. -/
def isSpent (limit : Option UInt64) (user : User) : Bool :=
  limit.any fun limit => decide (limit.toNat ≤ user.completed)

/-- The user after its pause has been drawn; no time passes in an empty one. -/
def rest (think : ThinkTime) (now : Nat) (user : User) : User :=
  match think.sample? user.words with
  | none => { user with activity := .crashed }
  | some (pause, words) =>
      let activity := if pause.nanos = 0 then .ready else .thinking (moment (now + pause.nanos))
      { user with words, activity }

/-- The user after recording an iteration. -/
def afterIteration (plan : Plan) (now : Nat) (user : User) : User :=
  let user := { user with completed := user.completed + 1 }
  if user.isSpent plan.iterations then { user with activity := .stopped }
  else user.rest plan.thinkTime now

end User

end LoadTest.Simulation
