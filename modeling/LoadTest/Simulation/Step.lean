import LoadTest.Simulation.State

/-!
# LoadTest.Simulation.Step

The steps of a run on the virtual clock. What can happen at a moment is an `Action`: a command arrives,
the run is cancelled from outside, the run itself goes on, or one of its users does. **The clock moves
only when there is no such action,** and then to the next time that anyone waits for.
-/

namespace LoadTest.Simulation

open Threshold

/-- What can happen next. -/
inductive Action where
  /-- The next command arrives. -/
  | deliver
  /-- The run is cancelled from outside. -/
  | cancel
  /-- The run itself goes on. -/
  | advance
  /-- A user goes on. -/
  | user (user : User)
  /-- Time passes. -/
  | wait
  deriving DecidableEq

namespace State

/-! ### Before the load -/

/-- Sends a request of no user. -/
def probe (setting : Setting) (request : Request) (state : State) : Reply × State :=
  let (reply, crowd) := state.crowd.send setting request
  (reply, { state with crowd := crowd.note (.probed request) })

/-- When a reply to a request sent now arrives. -/
def replyDue (state : State) (reply : Reply) : Nat := moment (state.crowd.now + reply.delay.nanos)

/-- Sends a request of no user so many times; the time at which the last reply arrives. -/
def probeMany (setting : Setting) (request : Request) : Nat → State → Nat × State
  | 0, state => (state.crowd.now, state)
  | n + 1, state =>
      let (reply, state) := state.probe setting request
      let (last, state) := probeMany setting request n state
      (max (state.replyDue reply) last, state)

/-- Begins the load: the schedule is looked at without delay. -/
def enterLoad (stockBefore : Option Int) (state : State) : State :=
  let now := state.crowd.now
  { state with phase := .loading { start := now, lastCheck := now, stockBefore } now }

/-- Looks at the stock, if there is one to look at. -/
def enterStocking (setting : Setting) (state : State) : State :=
  match setting.plan.inventory with
  | none => state.enterLoad none
  | some inventory =>
      let url := Probe.joinUrl setting.plan.baseUrl inventory.path
      let (reply, state) := state.probe setting (Probe.request url)
      { state with
        phase := .stocking url inventory.field reply.exchange (state.replyDue reply) }

/-- Opens connections in advance, if there is an address for it. -/
def enterWarmup (setting : Setting) (state : State) : State :=
  match setting.plan.warmup with
  | none => state.enterStocking setting
  | some url =>
      let (due, state) := state.probeMany setting (Probe.warmup url) Probe.warmupConnections
      { state with phase := .warming due }

/-- Checks the health of the target, if there is a path for it. -/
def enterCheck (setting : Setting) (state : State) : State :=
  match setting.plan.healthCheck with
  | none => state.enterWarmup setting
  | some path =>
      let url := Probe.joinUrl setting.plan.baseUrl path
      let (reply, state) := state.probe setting (Probe.request url)
      { state with phase := .checking url reply.exchange (state.replyDue reply) }

/-- A run that has just been started: commands come at their times, in ascending order, and a
cancellation may. -/
def start (setting : Setting) (upcoming : List (Nat × Command)) (cancelAt : Option Nat) : State :=
  let sink := setting.plan.scenario.sink setting.plan.shards
  let upcoming := upcoming.map fun (time, command) => (moment time, command)
  let cancelAt := cancelAt.map moment
  let state : State := { crowd := { sink }, phase := .warming 0, upcoming, cancelAt }
  match Outcome.checkSink setting.plan.scenario sink with
  | .error error => state.endWith (.missingSeries error)
  | .ok () => state.enterCheck setting

/-! ### After the load -/

/-- The inventory of a run whose stock was read before and after, or not; none if the readings are too
far apart. -/
def inventory? (before after : Option Int) : Option (Option Inventory) :=
  match before, after with
  | some before, some after => (Inventory.ofReadings? before after).map some
  | _, _ => some none

/-- The report of a run that has ended. -/
def conclude (setting : Setting) (load : Load) (lasted active : Duration) (stockAfter : Option Int)
    (state : State) : State :=
  let plan := setting.plan
  let outcome? : Option Outcome := do
    let inventory ← inventory? load.stockBefore stockAfter
    let snapshot ← state.crowd.sink.snapshot?
    pure (.reported (Report.build {
      scenario := plan.scenario.name
      tags := plan.tags
      startedAt := setting.startedAt
      runDuration := lasted
      peakUsers := load.peak
      categories := plan.scenario.categories.map (·.name)
      inventory
      aborted := load.aborted } snapshot (evaluate plan.thresholds snapshot active)))
  state.endWith (outcome?.getD .overflowed)

/-- Time on the clock since the load began, without pauses. -/
def clock (setting : Setting) (load : Load) (now : Nat) : Duration :=
  .ofNanosCapped (now - load.start - setting.pausedTime now)

/-- Looks at the stock once more, if there is one to look at. -/
def enterRestocking (setting : Setting) (load : Load) (state : State) : State :=
  let state := { state with shownLive := 0 }
  let lasted := Duration.ofNanosCapped (state.crowd.now - load.start)
  let active := clock setting load state.crowd.now
  match setting.plan.inventory with
  | none => state.conclude setting load lasted active none
  | some inventory =>
      let url := Probe.joinUrl setting.plan.baseUrl inventory.path
      let (reply, state) := state.probe setting (Probe.request url)
      { state with
        phase := .restocking load lasted active url inventory.field reply.exchange
          (state.replyDue reply) }

/-- Ends the load: every user is told to stop. -/
def enterDrain (setting : Setting) (load : Load) (state : State) : State :=
  let load := { load with aborted := state.crowd.cancelled }
  let state := state.withCrowd fun crowd => (crowd.note (.closed crowd.cancelled)).scaleTo setting 0
  { state with phase := .draining load (moment (state.crowd.now + setting.plan.gracefulStop.nanos)) }

/-! ### Under load -/

/-- Follows a command. -/
def follow (crowd : Crowd) : Command → Crowd
  | .ramp target => { crowd with control := crowd.control.ramp target }
  | .pause => { crowd with control := crowd.control.pause }
  | .resume => { crowd with control := crowd.control.resume }
  | .status => crowd
  | .stop => { crowd with cancelled := true }

/-- Whether the thresholds are to be checked at a time of the schedule. -/
def checkIsDue (setting : Setting) (load : Load) (clock : Duration) (now : Nat) : Bool :=
  setting.plan.abortOnFail && !setting.plan.abortThresholds.isEmpty
    && decide (setting.plan.abortDelay ≤ clock)
    && decide (setting.plan.thresholdInterval.nanos ≤ now - load.lastCheck)

/-- Checks the thresholds that can be checked during a run; one that fails ends the load. -/
def checkThresholds (setting : Setting) (load : Load) (clock : Duration) (tick : Nat) (state : State) :
    State :=
  match state.crowd.sink.snapshot? with
  | none => state.endWith .overflowed
  | some snapshot =>
      let load := { load with lastCheck := state.crowd.now }
      let verdict := evaluate setting.plan.abortThresholds snapshot clock
      let state := state.withCrowd (·.note (.checked clock verdict.passed))
      if verdict.passed then { state with phase := .loading load tick }
      else
        let state := state.withCrowd fun crowd => { crowd with cancelled := true }
        state.enterDrain setting load

/-- Brings the number of users to what the schedule or the operator asks for. -/
def scale (setting : Setting) (load : Load) (clock : Duration) (state : State) : Load × State :=
  let target := state.crowd.control.override.getD (setting.plan.schedule.targetAt clock)
  let state := state.withCrowd fun crowd =>
    let crowd := crowd.reap.scaleTo setting target
    crowd.note (.ticked clock target crowd.live)
  let live := state.crowd.live
  ({ load with peak := max load.peak live }, { state with shownLive := live })

/-- The look at the schedule that was to be at `due`: commands are followed first, and what remains
depends on the time. -/
def tick (setting : Setting) (load : Load) (due : Nat) (state : State) : State :=
  let state := { state with inbox := [], crowd := state.inbox.foldl follow state.crowd }
  let now := state.crowd.now
  let clock := clock setting load now
  if state.crowd.cancelled then state.enterDrain setting load
  else if setting.plan.schedule.isFinished clock then state.enterDrain setting load
  else
    let (load, state) := state.scale setting load clock
    let next := due + setting.plan.tick.nanos
    if checkIsDue setting load clock now then state.checkThresholds setting load clock next
    else { state with phase := .loading load next }

/-! ### Steps -/

/-- Whether the run itself can go on. -/
def canAdvance (state : State) : Bool :=
  match state.phase with
  | .loading _ tick => state.crowd.cancelled || decide (moment tick ≤ state.crowd.now)
  | .draining _ deadline => state.crowd.allOver || decide (deadline ≤ state.crowd.now)
  | .ended _ => false
  | phase => phase.due?.any fun due => decide (due ≤ state.crowd.now)

/-- The run itself goes on. -/
def advance (setting : Setting) (state : State) : State :=
  match state.phase with
  | .checking url exchange _ =>
      match Probe.readHealth url exchange with
      | .ok () => state.enterWarmup setting
      | .error error => state.endWith (.unhealthy error)
  | .warming _ => state.enterStocking setting
  | .stocking url field exchange _ =>
      state.enterLoad (Probe.readInventory url field exchange).toOption
  | .loading load tick =>
      if state.crowd.cancelled then state.enterDrain setting load else state.tick setting load tick
  | .draining load _ => (state.withCrowd (·.abort)).enterRestocking setting load
  | .restocking load lasted active url field exchange _ =>
      state.conclude setting load lasted active (Probe.readInventory url field exchange).toOption
  | .ended _ => state

/-- The next time that anyone waits for. -/
def nextDue? (state : State) : Option Nat :=
  (state.phase.due?.toList ++ state.crowd.nextDue?.toList ++ (state.upcoming.head?.map (·.1)).toList
    ++ state.cancelAt.toList).min?

/-- Whether an action other than waiting can happen. -/
def isEnabled (state : State) : Action → Bool
  | .deliver => state.upcoming.head?.any fun command => decide (command.1 ≤ state.crowd.now)
  | .cancel => state.cancelAt.any fun time => decide (time ≤ state.crowd.now)
  | .advance => state.canAdvance
  | .user user => state.crowd.users.contains user && state.crowd.canStep user
  | .wait => false

/-- What happens by an action. -/
def perform (setting : Setting) (state : State) : Action → State
  | .deliver =>
      match state.upcoming with
      | [] => state
      | (_, command) :: upcoming => { state with upcoming, inbox := state.inbox ++ [command] }
  | .cancel =>
      { state with cancelAt := none, crowd := { state.crowd with cancelled := true } }
  | .advance => state.advance setting
  | .user user => state.withCrowd (·.stepUser setting user)
  | .wait =>
      match state.nextDue? with
      | some due => state.withCrowd fun crowd => { crowd with now := max crowd.now due }
      | none => state

/-- The action that happens when it is left to this library: what comes from outside first, then the
run itself, then its users in the order in which they were spawned, and time passes last. -/
def choose (state : State) : Action :=
  if state.isEnabled .deliver then .deliver
  else if state.isEnabled .cancel then .cancel
  else if state.isEnabled .advance then .advance
  else
    match state.crowd.runnable? with
    | some user => .user user
    | none => .wait

end State

end LoadTest.Simulation
