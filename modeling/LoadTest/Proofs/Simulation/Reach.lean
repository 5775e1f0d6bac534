import LoadTest.Proofs.Simulation.Move
import LoadTest.Simulation.Run

/-!
# LoadTest.Proofs.Simulation.Reach

The states that a run can reach. **Anything that can happen may happen next, and time may pass at any
moment** (`State.Step`), so what holds of every reachable state holds of every order in which commands,
the run and its users go on, and of however late they do; the run that this library makes is one of them.
What a phase says of the users is kept by every step (`State.Sound`).
-/

namespace LoadTest.Simulation

open Crowd Relation

variable {setting : Setting} {crowd : Crowd}

/-- A run goes on: something that can happen does, or time passes. -/
inductive State.Step (setting : Setting) (state : State) : State → Prop where
  | act {action : Action} (enabled : state.isEnabled action = true) :
      Step setting state (state.perform setting action)
  | pass {now : Nat} (later : state.crowd.now ≤ now) :
      Step setting state (state.withCrowd fun crowd => { crowd with now })

/-- A turn is that of one of the users, who can go on. -/
theorem State.isEnabled_user_iff {state : State} {user : User} :
    state.isEnabled (.user user) = true ↔ user ∈ state.crowd.users ∧ state.crowd.canStep user = true := by
  simp [isEnabled]

/-- What a run can come to, given the commands and the cancellation that are to come. -/
def State.Reaches (setting : Setting) (upcoming : List (Nat × Command)) (cancelAt : Option Nat)
    (state : State) : Prop :=
  ReflTransGen (State.Step setting) (State.start setting upcoming cancelAt) state

/-! ### Phases -/

/-- How long a load lasted that ended at a time, with its pauses and without them. -/
def Lasted (setting : Setting) (load : Load) (lasted active : Duration) : Prop :=
  ∃ ended, lasted = .ofNanosCapped (ended - load.start) ∧ active = State.clock setting load ended

/-- A report is made of what the sink holds; a run whose check failed is reported as aborted. -/
def Concludes (setting : Setting) (crowd : Crowd) (report : Report) : Prop :=
  ∃ info snapshot load active, info.categories = setting.plan.scenario.categories.map (·.name)
    ∧ crowd.sink.snapshot? = some snapshot
    ∧ Lasted setting load info.runDuration active
    ∧ report = .build info snapshot (Threshold.evaluate setting.plan.thresholds snapshot active)
    ∧ (Failed crowd.log → info.aborted = true)

/-- What holds of users and log in a phase. While users drain none counts toward the target, and later
none is left. -/
def Fits (setting : Setting) (crowd : Crowd) : Phase → Prop
  | .draining load deadline => crowd.active = []
      ∧ (∃ time cancelled, (time, .closed cancelled) ∈ crowd.log
        ∧ deadline = moment (time + setting.plan.gracefulStop.nanos))
      ∧ (Failed crowd.log → load.aborted = true)
  | .restocking load lasted active _ _ _ _ => crowd.allOver = true ∧ Lasted setting load lasted active
      ∧ (Failed crowd.log → load.aborted = true)
  | .ended (.reported report) => crowd.allOver = true ∧ Concludes setting crowd report
  | _ => True

/-- A change that lets nobody in, fails no check, and changes nothing when all have ended. -/
structure Quiet (before after : Crowd) : Prop where
  active : after.active = before.active
  log : before.log ⊆ after.log
  failed : Failed after.log → Failed before.log
  allOver : before.allOver = true → after.allOver = true ∧ after.sink = before.sink

theorem Fits.quiet {after : Crowd} {phase : Phase} (fits : Fits setting crowd phase)
    (quiet : Quiet crowd after) : Fits setting after phase := by
  cases phase with
  | draining load deadline =>
      obtain ⟨hactive, ⟨time, cancelled, hclosed, hdeadline⟩, haborted⟩ := fits
      exact ⟨quiet.active.trans hactive, ⟨time, cancelled, quiet.log hclosed, hdeadline⟩,
        haborted ∘ quiet.failed⟩
  | restocking load lasted active _ _ _ _ =>
      obtain ⟨hover, hlasted, haborted⟩ := fits
      exact ⟨(quiet.allOver hover).1, hlasted, haborted ∘ quiet.failed⟩
  | ended outcome =>
      cases outcome with
      | reported report =>
          obtain ⟨hover, info, snapshot, load, active, hcategories, hsnapshot, hlasted, hreport,
            haborted⟩ := fits
          obtain ⟨hover', hsink⟩ := quiet.allOver hover
          exact ⟨hover', info, snapshot, load, active, hcategories, hsink ▸ hsnapshot, hlasted, hreport,
            haborted ∘ quiet.failed⟩
      | _ => trivial
  | _ => trivial

theorem quiet_stepUser {user : User} (h : crowd.Tracked) (mem : user ∈ crowd.users)
    (can : crowd.canStep user = true) : Quiet crowd (crowd.stepUser setting user) := by
  have hawake := awake_of_canStep can
  have hturn : Turn setting crowd user (crowd.stepUser setting user) := turn_stepUser can
  obtain ⟨events, hnoted, hplain⟩ := hturn.notes
  refine ⟨(hturn.inPlace h.numbered mem hawake).active, ?_, ?_, ?_⟩
  · exact hnoted.log ▸ List.subset_append_right ..
  · exact hnoted.log ▸ Failed.of_append hplain
  -- Where all have ended nobody takes a turn.
  · intro hover
    simp [List.all_eq_true.mp hover user mem] at hawake

/-- The report of a run that ended with one. -/
def Outcome.report? : Outcome → Option Report
  | .reported report => some report
  | _ => none

theorem Outcome.eq_of_report? {outcome? : Option Outcome} {report : Report}
    (h : outcome?.bind Outcome.report? = some report) : outcome? = some (.reported report) := by
  obtain ⟨outcome, rfl, hreport⟩ := Option.bind_eq_some_iff.mp h
  cases outcome with
  | reported found =>
      cases hreport
      rfl
  | _ => simp [Outcome.report?] at hreport

/-! ### Sound states -/

/-- **A state is sound** if moves have led to its crowd and its phase says the truth about it. -/
structure State.Sound (setting : Setting) (state : State) : Prop where
  moves : Moves setting (initial setting) state.crowd
  fits : Fits setting state.crowd state.phase

namespace State

variable {state : State}

theorem sound_enterLoad (moves : Moves setting (initial setting) state.crowd)
    (stockBefore : Option Int) : Sound setting (state.enterLoad stockBefore) :=
  ⟨moves, trivial⟩

theorem probeMany_succ (request : Request) (n : Nat) (state : State) :
    let (reply, sent) := state.probe setting request
    let (last, final) := sent.probeMany setting request n
    state.probeMany setting request (n + 1) = (max (final.replyDue reply) last, final) := by
  rw [probeMany]

/-- Requests of no user are moves. -/
theorem moves_probeMany (request : Request) (n : Nat) (state : State) :
    Moves setting state.crowd (state.probeMany setting request n).2.crowd := by
  induction n generalizing state with
  | zero => exact .refl
  | succ n ih =>
      rw [probeMany_succ]
      have hfirst : Move setting state.crowd (state.probe setting request).2.crowd := .probe request
      exact .head hfirst (ih (state.probe setting request).2)

theorem sound_enterStocking (moves : Moves setting (initial setting) state.crowd) :
    Sound setting (state.enterStocking setting) := by
  unfold enterStocking
  cases setting.plan.inventory with
  | none => exact sound_enterLoad moves none
  | some inventory => exact ⟨moves.tail (.probe _), trivial⟩

theorem sound_enterWarmup (moves : Moves setting (initial setting) state.crowd) :
    Sound setting (state.enterWarmup setting) := by
  unfold enterWarmup
  cases setting.plan.warmup with
  | none => exact sound_enterStocking moves
  | some url =>
      have hprobes : Moves setting state.crowd
          (state.probeMany setting (Probe.warmup url) Probe.warmupConnections).2.crowd :=
        moves_probeMany (Probe.warmup url) Probe.warmupConnections state
      exact ⟨moves.trans hprobes, trivial⟩

theorem sound_enterCheck (moves : Moves setting (initial setting) state.crowd) :
    Sound setting (state.enterCheck setting) := by
  unfold enterCheck
  cases setting.plan.healthCheck with
  | none => exact sound_enterWarmup moves
  | some path => exact ⟨moves.tail (.probe _), trivial⟩

theorem sound_start (setting : Setting) (upcoming : List (Nat × Command)) (cancelAt : Option Nat) :
    Sound setting (start setting upcoming cancelAt) := by
  unfold start
  simp only
  split
  · exact ⟨.refl, trivial⟩
  · exact sound_enterCheck .refl

/-! ### After the load -/

theorem sound_conclude {load : Load} {lasted active : Duration} {stockAfter : Option Int}
    (moves : Moves setting (initial setting) state.crowd) (hover : state.crowd.allOver = true)
    (hlasted : Lasted setting load lasted active) (haborted : Failed state.crowd.log → load.aborted = true) :
    Sound setting (state.conclude setting load lasted active stockAfter) := by
  refine ⟨moves, ?_⟩
  unfold conclude
  simp only [endWith]
  cases inventory? load.stockBefore stockAfter with
  | none => trivial
  | some inventory =>
      cases hsnapshot : state.crowd.sink.snapshot? with
      | none => trivial
      | some snapshot => exact ⟨hover, _, snapshot, load, active, rfl, hsnapshot, hlasted, rfl, haborted⟩

theorem sound_enterRestocking {load : Load} (moves : Moves setting (initial setting) state.crowd)
    (hover : state.crowd.allOver = true) (haborted : Failed state.crowd.log → load.aborted = true) :
    Sound setting (state.enterRestocking setting load) := by
  unfold enterRestocking
  have hlasted : Lasted setting load (.ofNanosCapped (state.crowd.now - load.start))
    (clock setting load state.crowd.now) := ⟨_, rfl, rfl⟩
  cases setting.plan.inventory with
  | none => exact sound_conclude moves hover hlasted haborted
  | some inventory =>
      refine ⟨moves.tail (.probe _), hover, hlasted, fun hfailed => haborted ?_⟩
      exact Failed.of_note rfl hfailed

/-- Once the users have been told to stop, nobody counts toward the target. -/
theorem sound_enterDrain {load : Load} (moves : Moves setting (initial setting) state.crowd) :
    Sound setting (state.enterDrain setting load) := by
  let closed := state.crowd.note (.closed state.crowd.cancelled)
  have hclosed : Moves setting (initial setting) closed := moves.tail .close
  have hafter : Moves setting (initial setting) (closed.scaleTo setting 0) :=
    hclosed.trans (moves_scaleTo 0 closed)
  have hscaled : Scaled 0 closed (closed.scaleTo setting 0) := (tracked_of_moves hclosed).scaled 0
  refine ⟨hafter, List.length_eq_zero_iff.mp hscaled.live, ?_, fun hfailed => ?_⟩
  · refine ⟨state.crowd.now, state.crowd.cancelled, ?_, ?_⟩
    · exact (log_suffix_of_moves (moves_scaleTo 0 closed)).subset List.mem_cons_self
    · have hnow : (closed.scaleTo setting 0).now = state.crowd.now := (now_scaleTo setting closed 0).1
      rw [← hnow]
      rfl
  · have hcancelled := cancelled_of_failed hafter hfailed
    rwa [(now_scaleTo setting closed 0).2] at hcancelled

/-! ### Under load -/

theorem moves_follow (commands : List Command) (crowd : Crowd) :
    Moves setting crowd (commands.foldl follow crowd) := by
  induction commands generalizing crowd with
  | nil => exact .refl
  | cons command rest ih =>
      refine .head ?_ (ih _)
      cases command with
      | stop => exact .outside (Nat.le_refl _) fun _ => rfl
      | _ => exact .outside (Nat.le_refl _) id

theorem sound_checkThresholds {load : Load} {clock : Duration} {tick : Nat}
    (moves : Moves setting (initial setting) state.crowd) :
    Sound setting (state.checkThresholds setting load clock tick) := by
  unfold checkThresholds
  cases hsnapshot : state.crowd.sink.snapshot? with
  | none => exact ⟨moves, trivial⟩
  | some snapshot =>
      cases hpassed : (Threshold.evaluate setting.plan.abortThresholds snapshot clock).passed with
      | true =>
          have hcheck := Move.check hsnapshot hpassed.symm
          simp only [hpassed]
          refine ⟨moves.tail ?_, trivial⟩
          simpa [note, withCrowd] using hcheck
      | false =>
          -- The check cancels the run in the same move, and so the load ends as aborted.
          have hcheck := Move.check hsnapshot hpassed.symm
          simp only [hpassed, Bool.false_eq_true, if_false]
          refine sound_enterDrain (moves.tail ?_)
          simpa [note, withCrowd] using hcheck

/-- Bringing the number of users to what is asked for is a sequence of moves. -/
theorem moves_scale (load : Load) (clock : Duration) (state : State) :
    Moves setting state.crowd (state.scale setting load clock).2.crowd :=
  .tail (.head .reap (moves_scaleTo _ state.crowd.reap)) (.tick clock _)

theorem sound_tick {load : Load} {due : Nat} (moves : Moves setting (initial setting) state.crowd) :
    Sound setting (state.tick setting load due) := by
  let followed : State := { state with inbox := [], crowd := state.inbox.foldl follow state.crowd }
  have hfollowed : Moves setting (initial setting) followed.crowd :=
    moves.trans (moves_follow state.inbox state.crowd)
  have hscaled : Moves setting (initial setting)
      (followed.scale setting load (clock setting load followed.crowd.now)).2.crowd :=
    hfollowed.trans (moves_scale load _ followed)
  unfold tick
  simp only
  split
  · exact sound_enterDrain hfollowed
  · split
    · exact sound_enterDrain hfollowed
    · split
      · exact sound_checkThresholds hscaled
      · exact ⟨hscaled, trivial⟩

/-! ### Every step -/

theorem Sound.advance (h : Sound setting state) (can : state.canAdvance = true) :
    Sound setting (state.advance setting) := by
  obtain ⟨moves, fits⟩ := h
  unfold canAdvance at can
  unfold State.advance
  cases hphase : state.phase with
  | checking url exchange due =>
      cases hhealth : Probe.readHealth url exchange with
      | ok _ => simpa [hhealth] using sound_enterWarmup moves
      | error _ => simpa [hhealth] using ⟨moves, trivial⟩
  | warming due => exact sound_enterStocking moves
  | stocking url field exchange due => exact sound_enterLoad moves _
  | loading load tick =>
      simp only
      split
      · exact sound_enterDrain moves
      · exact sound_tick moves
  | draining load deadline =>
      rw [hphase] at fits can
      obtain ⟨hactive, ⟨time, cancelled, hclosed, rfl⟩, haborted⟩ := fits
      have htracked := tracked_of_moves moves
      -- The run goes on when all have ended, with nobody left to abort, or at the deadline.
      have hexpired : state.crowd.allOver = true ∨ Expired setting state.crowd.log state.crowd.now := by
        refine (Bool.or_eq_true_iff.mp can).imp id fun hlate => ?_
        exact ⟨time, cancelled, hclosed, by simpa using hlate⟩
      exact sound_enterRestocking (moves.trans (htracked.moves_abort hexpired))
        (htracked.allOver_abort hactive) fun hfailed => haborted (failed_of_abort hfailed)
  | restocking load lasted active url field exchange due =>
      rw [hphase] at fits
      exact sound_conclude moves fits.1 fits.2.1 fits.2.2
  | ended outcome => exact ⟨moves, fits⟩

theorem Sound.step {next : State} (h : Sound setting state) (step : State.Step setting state next) :
    Sound setting next := by
  cases step with
  | pass later =>
      refine ⟨h.moves.tail (.outside later id), h.fits.quiet ⟨rfl, fun _ => id, id, ?_⟩⟩
      exact fun hover => ⟨hover, rfl⟩
  | @act action enabled =>
      cases action with
      | deliver =>
          have hsame : (state.perform setting .deliver).crowd = state.crowd
              ∧ (state.perform setting .deliver).phase = state.phase := by
            unfold perform
            cases state.upcoming <;> exact ⟨rfl, rfl⟩
          exact ⟨hsame.1 ▸ h.moves, hsame.1 ▸ hsame.2 ▸ h.fits⟩
      | cancel =>
          exact ⟨h.moves.tail (.outside (Nat.le_refl _) fun _ => rfl),
            h.fits.quiet ⟨rfl, fun _ => id, id, fun hover => ⟨hover, rfl⟩⟩⟩
      | advance => exact h.advance enabled
      | user user =>
          obtain ⟨mem, can⟩ := isEnabled_user_iff.mp enabled
          have hquiet : Quiet state.crowd (state.crowd.stepUser setting user) :=
            quiet_stepUser (tracked_of_moves h.moves) mem can
          exact ⟨h.moves.tail (.turn mem can), h.fits.quiet hquiet⟩
      | wait => simp [isEnabled] at enabled

theorem phase_of_outcome? {outcome : Outcome} (h : state.outcome? = some outcome) :
    state.phase = .ended outcome := by
  unfold outcome? at h
  cases hphase : state.phase with
  | ended ended =>
      rw [hphase] at h
      exact congrArg Phase.ended (Option.some.inj h)
  | _ => simp [hphase] at h

/-- Every state that a run can reach is sound. -/
theorem sound_of_reaches {upcoming : List (Nat × Command)} {cancelAt : Option Nat}
    (reaches : Reaches setting upcoming cancelAt state) : Sound setting state := by
  induction reaches with
  | refl => exact sound_start setting upcoming cancelAt
  | tail _ step ih => exact ih.step step

/-! ### The run that is made -/

/-- What is chosen can happen, or time passes, or nothing is left to happen. -/
theorem step_choose (setting : Setting) (state : State) :
    ReflTransGen (State.Step setting) state (state.perform setting state.choose) := by
  unfold choose
  split
  · next enabled => exact .single (.act enabled)
  · split
    · next enabled => exact .single (.act enabled)
    · split
      · next enabled => exact .single (.act enabled)
      · cases hrun : state.crowd.runnable? with
        | some user =>
            refine .single (.act ?_)
            have mem := List.mem_of_find?_eq_some hrun
            have can : state.crowd.canStep user = true := List.find?_some hrun
            exact isEnabled_user_iff.mpr ⟨mem, can⟩
        | none =>
            unfold perform
            cases state.nextDue? with
            | none => exact .refl
            | some due => exact .single (.pass (Nat.le_max_left ..))

/-- Whatever is made of a run in some number of steps, it can come to. -/
theorem steps_run (setting : Setting) (fuel : Nat) (state : State) :
    ReflTransGen (State.Step setting) state (run setting fuel state) := by
  induction fuel generalizing state with
  | zero => exact .refl
  | succ fuel ih =>
      unfold run
      split
      · exact .refl
      · exact (step_choose setting state).trans (ih _)

/-- The run that this library makes is one of those that can be. -/
theorem reaches_run (setting : Setting) (upcoming : List (Nat × Command)) (cancelAt : Option Nat)
    (fuel : Nat) :
    Reaches setting upcoming cancelAt ((start setting upcoming cancelAt).run setting fuel) :=
  steps_run setting fuel _

end State

end LoadTest.Simulation
