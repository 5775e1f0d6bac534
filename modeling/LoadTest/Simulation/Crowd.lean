import LoadTest.Outcome.Recorder
import LoadTest.Simulation.Target
import LoadTest.Simulation.User
import LoadTest.Timestamp

/-!
# LoadTest.Simulation.Crowd

The virtual users of a run, on a clock that moves only when none of them can go on. Users are spawned,
told to stop and forgotten by whoever runs them: those that count toward the target are active, those
told to stop drain until they are done. **The newest are told to stop first.** Every event is kept in a
log.
-/

namespace LoadTest.Simulation

open Outcome LoadTest.Metric

/-- Something that happened. -/
inductive Event where
  /-- A user began to exist. -/
  | spawned (user : Nat)
  /-- A user was told to stop. -/
  | dismissed (user : Nat)
  /-- A user that was told to stop, and has ended, was forgotten. -/
  | reaped (user : Nat)
  /-- A user sent a request. -/
  | sent (user : Nat) (request : Request)
  /-- A request of no user was sent. -/
  | probed (request : Request)
  /-- The iteration of a user was recorded. -/
  | recorded (user : Nat) (parameters : Parameters) (category : Category) (exchange : Exchange)
  /-- A user was ended from outside. -/
  | aborted (user : Nat)
  /-- The schedule was looked at: its time, the users it asks for, and those there are. -/
  | ticked (clock : Duration) (target live : Nat)
  /-- The thresholds were checked during the run. -/
  | checked (clock : Duration) (passed : Bool)
  /-- The load ended, and whether the run had been cancelled by then. -/
  | closed (cancelled : Bool)
  deriving DecidableEq

/-- What does not change while a run goes on. -/
structure Setting where
  plan : Plan
  target : Target
  /-- What a user draws from. -/
  words : Nat → Workload.Words := fun _ => { given := [] }
  /-- How long the run has been paused, in nanoseconds, by a moment of the clock. -/
  pausedTime : Nat → Nat := fun _ => 0
  /-- When the run is started. -/
  startedAt : Timestamp := ⟨0, 0⟩

/-- The users of a run and everything they share. -/
structure Crowd where
  /-- The clock, in nanoseconds. -/
  now : Nat := 0
  control : Control := {}
  /-- Whether the whole run has been told to stop. -/
  cancelled : Bool := false
  sink : Sink
  /-- Every user there ever was, by identity from one. -/
  users : List User := []
  /-- Users that count toward the target, the newest first. -/
  active : List Nat := []
  /-- Users told to stop that have not been forgotten. -/
  draining : List Nat := []
  /-- How many requests of each key have been sent. -/
  sent : Table Nat := .empty
  /-- What happened and when, the latest first. -/
  log : List (Nat × Event) := []

namespace Crowd

/-- Notes that something happened. -/
def note (crowd : Crowd) (event : Event) : Crowd := { crowd with log := (crowd.now, event) :: crowd.log }

/-- Changes one user. -/
def withUser (crowd : Crowd) (id : Nat) (f : User → User) : Crowd :=
  { crowd with users := crowd.users.modify (id - 1) f }

/-- The user of an identity. -/
def user? (crowd : Crowd) (id : Nat) : Option User := crowd.users[id - 1]?

/-! ### The pool -/

/-- One more user. -/
def spawn (setting : Setting) (crowd : Crowd) : Crowd :=
  let id := crowd.users.length + 1
  let users := crowd.users ++ [{ id, words := setting.words id }]
  note { crowd with users, active := id :: crowd.active } (.spawned id)

/-- So many more users. -/
def spawnMany (setting : Setting) : Nat → Crowd → Crowd
  | 0, crowd => crowd
  | n + 1, crowd => spawnMany setting n (crowd.spawn setting)

/-- Tells the newest active user to stop. -/
def dismiss (crowd : Crowd) : Crowd :=
  match crowd.active with
  | [] => crowd
  | id :: active =>
      let crowd := { crowd with active, draining := crowd.draining ++ [id] }
      (crowd.withUser id fun user => { user with told := true }).note (.dismissed id)

/-- Tells so many active users to stop. -/
def dismissMany : Nat → Crowd → Crowd
  | 0, crowd => crowd
  | n + 1, crowd => dismissMany n crowd.dismiss

/-- How many users count toward the target. -/
def live (crowd : Crowd) : Nat := crowd.active.length

/-- Spawns or dismisses users until so many are active. -/
def scaleTo (setting : Setting) (target : Nat) (crowd : Crowd) : Crowd :=
  dismissMany (crowd.live - target) (spawnMany setting (target - crowd.live) crowd)

/-- Whether the user of an identity has nothing left to do. -/
def isOver (crowd : Crowd) (id : Nat) : Bool := (crowd.user? id).any fun user => user.activity.isOver

/-- Forgets the users that were told to stop and have ended. -/
def reap (crowd : Crowd) : Crowd :=
  let ended := crowd.draining.filter crowd.isOver
  ended.foldl (fun crowd id => crowd.note (.reaped id))
    { crowd with draining := crowd.draining.filter fun id => !crowd.isOver id }

/-- How many active users are at work. -/
def running (crowd : Crowd) : Nat :=
  crowd.active.countP fun id => (crowd.user? id).any fun user => user.activity.isRunning

/-- How many users were told to stop and have not ended. -/
def stillDraining (crowd : Crowd) : Nat := crowd.draining.countP fun id => !crowd.isOver id

/-- Whether every user has ended. -/
def allOver (crowd : Crowd) : Bool := crowd.users.all fun user => user.activity.isOver

/-- Ends a user from outside. -/
def abortUser (crowd : Crowd) (id : Nat) : Crowd :=
  (crowd.withUser id fun user => { user with activity := .aborted }).note (.aborted id)

/-- Ends every user that was told to stop and has not ended; what it was waiting for is never recorded. -/
def abort (crowd : Crowd) : Crowd :=
  (crowd.draining.filter fun id => !crowd.isOver id).foldl abortUser crowd

/-! ### Requests -/

/-- Counts a request, and says what becomes of it within the limit of the plan. -/
def send (setting : Setting) (request : Request) (crowd : Crowd) : Reply × Crowd :=
  let count := (crowd.sent.find? request.key).getD 0
  ((setting.target request count).within setting.plan.requestTimeout,
    { crowd with sent := crowd.sent.insert request.key (count + 1) })

/-- The number of requests sent under all keys. -/
def sentTotal (crowd : Crowd) : Nat := crowd.sent.entries.foldr (fun entry n => entry.2 + n) 0

/-! ### Steps -/

/-- A user sends the request of an iteration and waits for what becomes of it. -/
def sendRequest (setting : Setting) (user : User) (parameters : Parameters) (words : Workload.Words)
    (crowd : Crowd) : Crowd :=
  let request := setting.plan.scenario.request setting.plan.baseUrl parameters
  let (reply, crowd) := crowd.send setting request
  (crowd.withUser user.id fun user =>
    { user with
      words
      activity := .sending parameters reply.exchange (moment (crowd.now + reply.delay.nanos)) }).note
    (.sent user.id request)

/-- A user begins an iteration, unless it should stop or the run is paused. -/
def beginIteration (setting : Setting) (user : User) (crowd : Crowd) : Crowd :=
  let become (activity : Activity) := crowd.withUser user.id fun user => { user with activity }
  if user.told || crowd.cancelled then become .stopped
  else if crowd.control.paused then become (.paused crowd.control.resumes)
  else
    match setting.plan.workload.next? (UInt64.ofNat user.id) user.words with
    | none => become .crashed
    | some (parameters, words) => crowd.sendRequest setting user parameters words

/-- What became of a user's request is recorded, and the user goes on. -/
def endIteration (setting : Setting) (user : User) (parameters : Parameters) (exchange : Exchange)
    (crowd : Crowd) : Crowd :=
  let category := classify setting.plan.scenario exchange parameters
  let crowd := { crowd with sink := record setting.plan.scenario category exchange crowd.sink }
  (crowd.withUser user.id (·.afterIteration setting.plan crowd.now)).note
    (.recorded user.id parameters category exchange)

/-- A user that can go on does so. -/
def stepUser (setting : Setting) (user : User) (crowd : Crowd) : Crowd :=
  match user.activity with
  | .sending parameters exchange _ => crowd.endIteration setting user parameters exchange
  | .idle | .ready | .paused _ | .thinking _ => crowd.beginIteration setting user
  | .stopped | .crashed | .aborted => crowd

/-- Whether a user can go on. -/
def canStep (crowd : Crowd) (user : User) : Bool :=
  user.canStep crowd.now crowd.control crowd.cancelled

/-- The first user that can go on. -/
def runnable? (crowd : Crowd) : Option User := crowd.users.find? crowd.canStep

/-- The earliest time that a user waits for. -/
def nextDue? (crowd : Crowd) : Option Nat := (crowd.users.filterMap fun user => user.activity.due?).min?

/-- Lets users go on until none can before a time, in at most so many steps, and then moves the clock
to that time. -/
def runUntil (setting : Setting) (time : Nat) : Nat → Crowd → Crowd
  | 0, crowd => crowd
  | fuel + 1, crowd =>
      match crowd.runnable? with
      | some user => runUntil setting time fuel (crowd.stepUser setting user)
      | none =>
          match crowd.nextDue? with
          | some due =>
              if due ≤ time then runUntil setting time fuel { crowd with now := due }
              else { crowd with now := time }
          | none => { crowd with now := time }

/-- Lets users go on for a while, in at most so many steps. In no time at all nobody goes on. -/
def runFor (setting : Setting) (span : Duration) (fuel : Nat) (crowd : Crowd) : Crowd :=
  if span.nanos = 0 then crowd else crowd.runUntil setting (moment (crowd.now + span.nanos)) fuel

/-- Lets users go on until all have ended or a time has come, in at most so many steps. The second part
says how many of those told to stop had not ended and were aborted. -/
def drainUntil (setting : Setting) (deadline : Nat) : Nat → Crowd → Crowd × Nat
  | 0, crowd => (crowd, 0)
  | fuel + 1, crowd =>
      if crowd.allOver then (crowd, 0)
      else if deadline ≤ crowd.now then
        (crowd.abort, crowd.stillDraining)
      else
        match crowd.runnable? with
        | some user => drainUntil setting deadline fuel (crowd.stepUser setting user)
        | none =>
            let due := min (crowd.nextDue?.getD deadline) deadline
            drainUntil setting deadline fuel { crowd with now := due }

/-- Tells every user to stop and waits for them as long as they are given. -/
def shutdown (setting : Setting) (grace : Duration) (fuel : Nat) (crowd : Crowd) : Crowd × Nat :=
  let crowd := crowd.scaleTo setting 0
  drainUntil setting (moment (crowd.now + grace.nanos)) fuel crowd

end Crowd

end LoadTest.Simulation
