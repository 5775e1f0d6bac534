import LoadTest.Proofs.Simulation.Reach
import LoadTest.Proofs.Simulation.Spared
import Mathlib.Data.List.Induction

/-!
# LoadTest.Proofs.Simulation.Change

What one step of a run changes. **Every step is one of a few changes** (`State.Change`), and one of them
alone spawns users: a look at the schedule, which either ends the load or brings the number of users to
what is asked for (`State.Look`). Facts about every step of every run are read off these cases.
-/

namespace LoadTest.Simulation

open Crowd

/-! ### Before and after the load -/

/-- Whether the load has not begun. -/
def Phase.isEarly : Phase → Bool
  | .checking .. | .warming _ | .stocking .. => true
  | _ => false

/-- What a run can come to by going on before the load: no user has counted toward a target. -/
def Phase.IsFresh : Phase → Prop
  | .loading load _ => load.peak = 0
  | .ended outcome => outcome.report? = none
  | phase => phase.isEarly = true

/-- What a run can come to after a load, and what its report then says of it. -/
def Phase.Reports (load : Load) : Phase → Prop
  | .restocking load' .. => load' = load
  | .ended (.reported report) => report.peakUsers = .ofNat load.peak ∧ report.aborted = load.aborted
  | .ended _ => True
  | _ => False

namespace State

variable {setting : Setting} {state next : State} {load : Load}

/-- The run goes on to another phase, with requests of no user. -/
inductive Onward (allowed : Phase → Prop) (state : State) : State → Prop where
  | intro {crowd : Crowd} {phase : Phase} (shownLive : Nat) (probed : Probed state.crowd crowd)
      (h : allowed phase) : Onward allowed state { state with crowd, phase, shownLive }

theorem probed_probeMany (setting : Setting) (request : Request) (n : Nat) (state : State) :
    ∃ crowd, (state.probeMany setting request n).2 = { state with crowd } ∧ Probed state.crowd crowd := by
  induction n generalizing state with
  | zero => exact ⟨state.crowd, rfl, .refl _⟩
  | succ n ih =>
      obtain ⟨crowd, heq, hprobed⟩ := ih (state.probe setting request).2
      refine ⟨crowd, ?_, (probed_send setting request state.crowd).trans hprobed⟩
      rw [probeMany_succ]
      exact heq

theorem onward_enterLoad (stockBefore : Option Int) (state : State) :
    Onward Phase.IsFresh state (state.enterLoad stockBefore) :=
  .intro state.shownLive (.refl _) rfl

theorem onward_enterStocking (setting : Setting) (state : State) :
    Onward Phase.IsFresh state (state.enterStocking setting) := by
  unfold enterStocking
  cases setting.plan.inventory with
  | none => exact onward_enterLoad none state
  | some inventory => exact .intro state.shownLive (probed_send setting _ state.crowd) rfl

theorem onward_enterWarmup (setting : Setting) (state : State) :
    Onward Phase.IsFresh state (state.enterWarmup setting) := by
  unfold enterWarmup
  cases setting.plan.warmup with
  | none => exact onward_enterStocking setting state
  | some url =>
      obtain ⟨crowd, heq, hprobed⟩ :=
        probed_probeMany setting (Probe.warmup url) Probe.warmupConnections state
      simp only [heq]
      exact .intro state.shownLive hprobed rfl

theorem onward_enterCheck (setting : Setting) (state : State) :
    Onward Phase.IsFresh state (state.enterCheck setting) := by
  unfold enterCheck
  cases setting.plan.healthCheck with
  | none => exact onward_enterWarmup setting state
  | some path => exact .intro state.shownLive (probed_send setting _ state.crowd) rfl

/-- A run of which nothing has happened. -/
def blank (setting : Setting) (upcoming : List (Nat × Command)) (cancelAt : Option Nat) : State where
  crowd := initial setting
  phase := .warming 0
  upcoming := upcoming.map fun (time, command) => (moment time, command)
  cancelAt := cancelAt.map moment

theorem onward_start (setting : Setting) (upcoming : List (Nat × Command)) (cancelAt : Option Nat) :
    Onward Phase.IsFresh (blank setting upcoming cancelAt) (start setting upcoming cancelAt) := by
  unfold start
  simp only
  split
  · exact .intro 0 (.refl _) rfl
  · exact onward_enterCheck setting (blank setting upcoming cancelAt)

theorem reports_conclude (lasted active : Duration) (stockAfter : Option Int) (state : State) :
    (state.conclude setting load lasted active stockAfter).phase.Reports load := by
  unfold conclude
  simp only [endWith]
  cases inventory? load.stockBefore stockAfter with
  | none => trivial
  | some inventory =>
      cases state.crowd.sink.snapshot? with
      | none => trivial
      | some snapshot => exact ⟨rfl, rfl⟩

theorem onward_conclude (lasted active : Duration) (stockAfter : Option Int) (state : State) :
    Onward (Phase.Reports load) state (state.conclude setting load lasted active stockAfter) :=
  .intro state.shownLive (.refl _) (reports_conclude lasted active stockAfter state)

theorem onward_enterRestocking (setting : Setting) (load : Load) (state : State) :
    Onward (Phase.Reports load) state (state.enterRestocking setting load) := by
  unfold enterRestocking
  cases setting.plan.inventory with
  | none => exact .intro 0 (.refl _) (reports_conclude ..)
  | some inventory => exact .intro 0 (probed_send setting _ state.crowd) rfl

/-! ### Looks at the schedule -/

/-- The number of users that the last of some commands to name one asks for. -/
def lastRamp? (commands : List Command) : Option Nat := commands.reverse.findSome? fun
  | .ramp target => some target
  | _ => none

theorem lastRamp?_append (earlier later : List Command) :
    lastRamp? (earlier ++ later) = (lastRamp? later).or (lastRamp? earlier) := by
  rw [lastRamp?, List.reverse_append, List.findSome?_append]
  rfl

/-- Following commands changes what is asked for, and cancels the run if one of them stops it. -/
theorem foldl_follow (commands : List Command) (crowd : Crowd) : ∃ control,
    commands.foldl follow crowd
      = { crowd with control, cancelled := crowd.cancelled || decide (.stop ∈ commands) }
    ∧ control.override = (lastRamp? commands).or crowd.control.override := by
  -- The induction is from the end: the last command to name a number decides.
  induction commands using List.reverseRecOn with
  | nil => exact ⟨crowd.control, by simp, rfl⟩
  | append_singleton commands command ih =>
      obtain ⟨control, heq, hoverride⟩ := ih
      rw [List.foldl_append, heq, lastRamp?_append]
      cases command with
      | ramp target => exact ⟨control.ramp target, by simp [follow], rfl⟩
      | pause => exact ⟨control.pause, by simp [follow], hoverride⟩
      | resume =>
          refine ⟨control.resume, by simp [follow], ?_⟩
          unfold Control.resume
          split <;> exact hoverride
      | status => exact ⟨control, by simp [follow], hoverride⟩
      | stop => exact ⟨control, by simp [follow], hoverride⟩

/-- The run after following the commands received. -/
def heed (state : State) : State := { state with inbox := [], crowd := state.inbox.foldl follow state.crowd }

section

variable (state : State)

theorem heed_eq : ∃ control, state.heed = { state with
      inbox := []
      crowd := { state.crowd with
        control, cancelled := state.crowd.cancelled || decide (.stop ∈ state.inbox) } }
    ∧ control.override = (lastRamp? state.inbox).or state.crowd.control.override := by
  obtain ⟨control, heq, hoverride⟩ := foldl_follow state.inbox state.crowd
  exact ⟨control, by rw [heed, heq], hoverride⟩

@[simp] theorem now_heed : state.heed.crowd.now = state.crowd.now := by
  obtain ⟨control, heq, -⟩ := state.heed_eq
  rw [heq]

@[simp] theorem users_heed : state.heed.crowd.users = state.crowd.users := by
  obtain ⟨control, heq, -⟩ := state.heed_eq
  rw [heq]

@[simp] theorem active_heed : state.heed.crowd.active = state.crowd.active := by
  obtain ⟨control, heq, -⟩ := state.heed_eq
  rw [heq]

@[simp] theorem log_heed : state.heed.crowd.log = state.crowd.log := by
  obtain ⟨control, heq, -⟩ := state.heed_eq
  rw [heq]

@[simp] theorem cancelled_heed :
    state.heed.crowd.cancelled = (state.crowd.cancelled || decide (.stop ∈ state.inbox)) := by
  obtain ⟨control, heq, -⟩ := state.heed_eq
  rw [heq]

end

/-- The users that are asked for at a look. -/
def asked (setting : Setting) (load : Load) (state : State) : Nat :=
  state.heed.crowd.control.override.getD
    (setting.plan.schedule.targetAt (clock setting load state.crowd.now))

/-- The crowd when a look has brought the number of users to what is asked for. -/
def scaled (setting : Setting) (load : Load) (state : State) : Crowd :=
  let crowd := state.heed.crowd.reap.scaleTo setting (state.asked setting load)
  crowd.note (.ticked (clock setting load state.crowd.now) (state.asked setting load) crowd.live)

/-- What a look at the schedule comes to. -/
inductive Look (setting : Setting) (load : Load) (state : State) : State → Prop where
  /-- The run had been cancelled before. -/
  | drop (cancelled : state.crowd.cancelled = true) :
      Look setting load state (state.enterDrain setting load)
  /-- A command has stopped the run, or the schedule is over. -/
  | close (running : state.crowd.cancelled = false)
      (cause : .stop ∈ state.inbox
        ∨ setting.plan.schedule.isFinished (clock setting load state.crowd.now) = true) :
      Look setting load state (state.heed.enterDrain setting load)
  /-- The load goes on; a check may have passed. -/
  | scale (running : state.heed.crowd.cancelled = false)
      (unfinished : setting.plan.schedule.isFinished (clock setting load state.crowd.now) = false)
      {crowd : Crowd} {load' : Load} (tick : Nat)
      (hcrowd : crowd = state.scaled setting load
        ∨ ∃ clock, crowd = (state.scaled setting load).note (.checked clock true))
      (hpeak : load'.peak = max load.peak (state.scaled setting load).live) :
      Look setting load state { state.heed with
        crowd, phase := .loading load' tick, shownLive := (state.scaled setting load).live }
  /-- A check has failed, and ends the load. -/
  | fail (running : state.heed.crowd.cancelled = false)
      (unfinished : setting.plan.schedule.isFinished (clock setting load state.crowd.now) = false)
      {load' : Load} (time : Duration)
      (hpeak : load'.peak = max load.peak (state.scaled setting load).live) :
      Look setting load state ({ state.heed with
        crowd := { (state.scaled setting load).note (.checked time false) with cancelled := true }
        shownLive := (state.scaled setting load).live : State }.enterDrain setting load')
  /-- What was recorded cannot be summed up. -/
  | overflow (running : state.heed.crowd.cancelled = false)
      (unfinished : setting.plan.schedule.isFinished (clock setting load state.crowd.now) = false) :
      Look setting load state { state.heed with
        crowd := state.scaled setting load, phase := .ended .overflowed
        shownLive := (state.scaled setting load).live }

theorem spared_enterDrain (setting : Setting) (load : Load) (state : State) :
    Spared state.crowd (state.enterDrain setting load).crowd := by
  have hclosed : Spared state.crowd (state.crowd.note (.closed state.crowd.cancelled)) := .note rfl _
  exact hclosed.trans (.scaleTo 0 _)

/-- Nobody is spawned when the load ends, and nobody counts toward a target then. -/
theorem live_enterDrain (setting : Setting) (load : Load) (state : State) :
    (state.enterDrain setting load).crowd.users.length = state.crowd.users.length
      ∧ (state.enterDrain setting load).crowd.live = 0 := by
  let closed := state.crowd.note (.closed state.crowd.cancelled)
  have hlength : (closed.scaleTo setting 0).users.length = closed.users.length + (0 - closed.live) :=
    length_scaleTo setting 0 closed
  refine ⟨?_, live_scaleTo setting 0 closed⟩
  rw [Nat.zero_sub, Nat.add_zero] at hlength
  exact hlength

/-- A look brings the number of users to what is asked for, and notes it. -/
theorem exists_scaled (setting : Setting) (load : Load) (state : State) : ∃ crowd,
    Spared state.heed.crowd crowd
      ∧ crowd.users.length = state.crowd.users.length + (state.asked setting load - state.crowd.live)
      ∧ crowd.live = state.asked setting load
      ∧ state.scaled setting load = crowd.note
        (.ticked (clock setting load state.crowd.now) (state.asked setting load) (state.asked setting load)) := by
  have hlive : (state.heed.crowd.reap.scaleTo setting (state.asked setting load)).live
      = state.asked setting load := live_scaleTo ..
  refine ⟨_, (Spared.reap _).trans (.scaleTo (state.asked setting load) _), ?_, hlive, ?_⟩
  · obtain ⟨hlength, hactive⟩ := live_reap state.heed.crowd
    rw [length_scaleTo, hlength, hactive, users_heed, live, active_heed, live]
  · rw [scaled, hlive]

/-- A check after a look lets the load go on or ends it. -/
theorem look_checkThresholds (running : state.heed.crowd.cancelled = false)
    (unfinished : setting.plan.schedule.isFinished (clock setting load state.crowd.now) = false)
    {load' : Load} (hpeak : load'.peak = max load.peak (state.scaled setting load).live) (time : Duration)
    (tick : Nat) :
    Look setting load state (checkThresholds setting load' time tick { state.heed with
      crowd := state.scaled setting load, shownLive := (state.scaled setting load).live }) := by
  unfold checkThresholds
  simp only
  cases (state.scaled setting load).sink.snapshot? with
  | none => exact .overflow running unfinished
  | some snapshot =>
      simp only
      cases (Threshold.evaluate setting.plan.abortThresholds snapshot time).passed with
      | true => exact .scale running unfinished tick (.inr ⟨time, rfl⟩) hpeak
      | false => exact .fail running unfinished time hpeak

/-- How a run under load goes on. A look computes with the state in which the commands have been followed, and
whether a check is due hangs on when the last was made, which scaling leaves as it is. -/
theorem advance_eq {tick : Nat} (loading : state.phase = .loading load tick) : state.advance setting = (
    if state.crowd.cancelled then state.enterDrain setting load
    else if state.heed.crowd.cancelled then state.heed.enterDrain setting load
    else if setting.plan.schedule.isFinished (clock setting load state.crowd.now) then
      state.heed.enterDrain setting load
    else
      let scaled := state.heed.scale setting load (clock setting load state.crowd.now)
      if checkIsDue setting load (clock setting load state.crowd.now) state.crowd.now then
        scaled.2.checkThresholds setting scaled.1 (clock setting load state.crowd.now)
          (tick + setting.plan.tick.nanos)
      else { scaled.2 with phase := .loading scaled.1 (tick + setting.plan.tick.nanos) }) := by
  have hadvance : state.advance setting
      = if state.crowd.cancelled then state.enterDrain setting load else state.tick setting load tick := by
    simp only [State.advance, loading]
  rw [hadvance, ← now_heed state]
  rfl

/-- While the load goes on, the run itself goes on by looking at the schedule. -/
theorem look_advance {tick : Nat} (loading : state.phase = .loading load tick) :
    Look setting load state (state.advance setting) := by
  rw [advance_eq loading]
  by_cases hcancelled : state.crowd.cancelled = true
  · rw [if_pos hcancelled]
    exact .drop hcancelled
  rw [if_neg hcancelled]
  have hrunning : state.crowd.cancelled = false := by simpa using hcancelled
  by_cases hstopped : state.heed.crowd.cancelled = true
  · rw [if_pos hstopped]
    rw [cancelled_heed, hrunning] at hstopped
    exact .close hrunning (.inl (by simpa using hstopped))
  rw [if_neg hstopped]
  by_cases hfinished : setting.plan.schedule.isFinished (clock setting load state.crowd.now) = true
  · rw [if_pos hfinished]
    exact .close hrunning (.inr hfinished)
  rw [if_neg hfinished]
  simp only [Bool.not_eq_true] at hstopped hfinished
  simp only
  split
  · exact look_checkThresholds hstopped hfinished rfl _ _
  · exact .scale hstopped hfinished _ (.inl rfl) rfl

/-! ### Every step -/

/-- **What a step of a run changes.** -/
inductive Change (setting : Setting) (state : State) : State → Prop where
  /-- Time passes. -/
  | pass {now : Nat} (later : state.crowd.now ≤ now) :
      Change setting state { state with crowd := { state.crowd with now } }
  /-- A command arrives. -/
  | deliver {time : Nat} {command : Command} {upcoming : List (Nat × Command)}
      (next : state.upcoming = (time, command) :: upcoming) :
      Change setting state { state with upcoming, inbox := state.inbox ++ [command] }
  /-- The run is cancelled from outside. -/
  | cancel (due : state.cancelAt.isSome = true) :
      Change setting state
        { state with cancelAt := none, crowd := { state.crowd with cancelled := true } }
  /-- A user goes on. -/
  | turn {user : User} {after : Crowd} (mem : user ∈ state.crowd.users)
      (can : state.crowd.canStep user = true) (turn : Turn setting state.crowd user after) :
      Change setting state { state with crowd := after }
  /-- The run comes nearer to its load. -/
  | begin {next : State} (early : state.phase.isEarly = true)
      (onward : Onward Phase.IsFresh state next) : Change setting state next
  /-- The schedule is looked at. -/
  | look {next : State} {load : Load} {tick : Nat} (loading : state.phase = .loading load tick)
      (look : Look setting load state next) : Change setting state next
  /-- The users have ended, or the time that they were given is over. -/
  | finish {next : State} {load : Load} {deadline : Nat} (draining : state.phase = .draining load deadline)
      (late : state.crowd.allOver = true ∨ deadline ≤ state.crowd.now)
      (onward : Onward (Phase.Reports load) { state with crowd := state.crowd.abort } next) :
      Change setting state next
  /-- The run is reported. -/
  | report {next : State} {load : Load} {lasted active : Duration} {url field : String}
      {exchange : Exchange} {due : Nat}
      (restocking : state.phase = .restocking load lasted active url field exchange due)
      (onward : Onward (Phase.Reports load) state next) : Change setting state next

theorem change_advance (can : state.canAdvance = true) :
    Change setting state (state.advance setting) := by
  cases hphase : state.phase with
  | checking url exchange due =>
      refine .begin (by rw [hphase]; rfl) ?_
      simp only [State.advance, hphase]
      cases Probe.readHealth url exchange with
      | ok _ => exact onward_enterWarmup setting state
      | error _ => exact .intro state.shownLive (.refl _) rfl
  | warming due =>
      refine .begin (by rw [hphase]; rfl) ?_
      simp only [State.advance, hphase]
      exact onward_enterStocking setting state
  | stocking url field exchange due =>
      refine .begin (by rw [hphase]; rfl) ?_
      simp only [State.advance, hphase]
      exact onward_enterLoad _ state
  | loading load tick => exact .look hphase (look_advance hphase)
  | draining load deadline =>
      have hlate : state.crowd.allOver = true ∨ deadline ≤ state.crowd.now := by
        simpa [canAdvance, hphase] using can
      have hadvance : state.advance setting
          = (state.withCrowd (·.abort)).enterRestocking setting load := by
        simp only [State.advance, hphase]
      rw [hadvance]
      exact .finish hphase hlate (onward_enterRestocking setting load _)
  | restocking load lasted active url field exchange due =>
      refine .report hphase ?_
      simp only [State.advance, hphase]
      exact onward_conclude lasted active _ state
  | ended outcome => simp [canAdvance, hphase] at can

/-- **Every step is a change.** -/
theorem Step.change (step : Step setting state next) : Change setting state next := by
  cases step with
  | pass later => exact .pass later
  | @act action enabled =>
      cases action with
      | deliver =>
          cases hupcoming : state.upcoming with
          | nil => simp [isEnabled, hupcoming] at enabled
          | cons first upcoming =>
              simp only [perform, hupcoming]
              exact .deliver hupcoming
      | cancel =>
          refine .cancel ?_
          cases hcancel : state.cancelAt with
          | none => simp [isEnabled, hcancel] at enabled
          | some time => rfl
      | advance => exact change_advance enabled
      | user user =>
          obtain ⟨mem, can⟩ := isEnabled_user_iff.mp enabled
          exact .turn mem can (turn_stepUser can)
      | wait => simp [isEnabled] at enabled

/-! ### Places -/

/-- At a look nobody goes on and nobody is ended. -/
theorem Look.idle (look : Look setting load state next) : Idle state.crowd next.crowd := by
  have hheed : Idle state.crowd state.heed.crowd := .ofUsers (.of_log state.log_heed) state.users_heed
  have hscaled : Idle state.crowd (state.scaled setting load) := by
    obtain ⟨crowd, hspared, -, -, heq⟩ := exists_scaled setting load state
    rw [heq]
    exact hheed.trans (hspared.toIdle.trans (.ofUsers (.single rfl rfl) rfl))
  cases look with
  | drop cancelled => exact (spared_enterDrain setting load state).toIdle
  | close running cause => exact hheed.trans (spared_enterDrain setting load state.heed).toIdle
  | scale running unfinished tick hcrowd hpeak =>
      rcases hcrowd with rfl | ⟨time, rfl⟩
      · exact hscaled
      · exact hscaled.trans (.ofUsers (.single rfl rfl) rfl)
  | @fail running unfinished load' time hpeak =>
      refine (hscaled.trans ?_).trans (spared_enterDrain setting load' _).toIdle
      exact .ofUsers (.single rfl rfl) rfl
  | overflow running unfinished => exact hscaled

/-- A look takes places away only by asking for fewer users than there are. -/
theorem Look.live_lt {id : Nat} (look : Look setting load state next) (mem : id ∈ state.crowd.active)
    (gone : id ∉ next.crowd.active) : next.crowd.live < state.crowd.live := by
  have hpos : 0 < state.crowd.live := List.length_pos_of_mem mem
  have hscaled (h : id ∉ (state.scaled setting load).active) :
      (state.scaled setting load).live < state.crowd.live := by
    have hactive : state.heed.crowd.reap.active = state.crowd.active := by
      rw [(swept_reap _).active, active_heed]
    have hlive : (state.scaled setting load).live = state.asked setting load := live_scaleTo ..
    have hlt := lt_live_of_scaleTo (hactive ▸ mem) h
    rw [hlive]
    rwa [live, hactive] at hlt
  cases look with
  | drop cancelled => rwa [(live_enterDrain setting load state).2]
  | close running cause => rwa [(live_enterDrain setting load state.heed).2]
  | scale running unfinished tick hcrowd hpeak =>
      rcases hcrowd with rfl | ⟨time, rfl⟩ <;> exact hscaled gone
  | @fail running unfinished load' time hpeak => rwa [(live_enterDrain setting load' _).2]
  | overflow running unfinished => exact hscaled gone

/-! ### New users -/

/-- Users are spawned where fewer count toward the target than are asked for, and as many as are missing;
not in a run that has been cancelled, and not when the schedule is over. -/
theorem Look.length_eq (look : Look setting load state next) :
    next.crowd.users.length = state.crowd.users.length
      ∨ (next.crowd.users.length = state.crowd.users.length + (state.asked setting load - state.crowd.live)
        ∧ state.heed.crowd.cancelled = false
        ∧ setting.plan.schedule.isFinished (clock setting load state.crowd.now) = false) := by
  obtain ⟨crowd, -, hlength, -, hscaled⟩ := exists_scaled setting load state
  have hcount : (state.scaled setting load).users.length
      = state.crowd.users.length + (state.asked setting load - state.crowd.live) := by
    rw [hscaled]
    exact hlength
  cases look with
  | drop cancelled => exact .inl (live_enterDrain setting load state).1
  | close running cause =>
      have hlength := (live_enterDrain setting load state.heed).1
      rw [users_heed] at hlength
      exact .inl hlength
  | scale running unfinished tick hcrowd hpeak =>
      rcases hcrowd with rfl | ⟨time, rfl⟩ <;> exact .inr ⟨hcount, running, unfinished⟩
  | fail running unfinished time hpeak =>
      exact .inr ⟨(live_enterDrain ..).1.trans hcount, running, unfinished⟩
  | overflow running unfinished => exact .inr ⟨hcount, running, unfinished⟩

theorem Onward.length_eq {allowed : Phase → Prop} (onward : Onward allowed state next) :
    next.crowd.users.length = state.crowd.users.length ∧ next.crowd.active = state.crowd.active := by
  obtain ⟨shownLive, ⟨sent, probes⟩, -⟩ := onward
  exact ⟨rfl, rfl⟩

/-- Users are spawned at looks at the schedule only. -/
theorem Change.length_eq (change : Change setting state next) :
    next.crowd.users.length = state.crowd.users.length ∨ ∃ load tick, state.phase = .loading load tick
      ∧ next.crowd.users.length = state.crowd.users.length + (state.asked setting load - state.crowd.live)
      ∧ state.heed.crowd.cancelled = false
      ∧ setting.plan.schedule.isFinished (clock setting load state.crowd.now) = false := by
  cases change with
  | pass later => exact .inl rfl
  | deliver next => exact .inl rfl
  | cancel due => exact .inl rfl
  | turn mem can turn => exact .inl turn.length_eq
  | begin early onward => exact .inl onward.length_eq.1
  | look loading look => exact look.length_eq.imp_right fun h => ⟨_, _, loading, h⟩
  | finish draining late onward =>
      exact .inl (onward.length_eq.1.trans (active_abort state.crowd).1)
  | report restocking onward => exact .inl onward.length_eq.1

end State

end LoadTest.Simulation
