import LoadTest.Proofs.Simulation.Scaling
import LoadTest.Proofs.Simulation.Turn
import Mathlib.Logic.Relation

/-!
# LoadTest.Proofs.Simulation.Shutdown

The end of a pool. **No user is lost:** whatever happened to the pool before, a shutdown ends every user
there ever was, and the number it returns is that of the users it had to abort. What is proved first
holds of every order in which users take their turns; the loop that runs is one such order, and it ends
because each turn of a user that was told to stop brings it nearer to its end.
-/

namespace LoadTest.Simulation

open Relation

namespace Crowd

variable {setting : Setting} {crowd : Crowd} {user : User} {deadline : Nat}

/-! ### Waiting -/

/-- What can happen while users are waited for until a deadline: one of them takes a turn, or time
passes. -/
inductive Waiting (setting : Setting) (deadline : Nat) (crowd : Crowd) : Crowd → Prop where
  | turn {user : User} (mem : user ∈ crowd.users) (can : crowd.canStep user = true) :
      Waiting setting deadline crowd (crowd.stepUser setting user)
  | pass {due : Nat} (later : crowd.now ≤ due) (intime : due ≤ deadline) :
      Waiting setting deadline crowd { crowd with now := due }

/-- Waiting for users in any order of their turns, and what it comes to: all have ended, or the time is
over and those left are aborted. -/
def Drains (setting : Setting) (deadline : Nat) (crowd : Crowd) (result : Crowd × Nat) : Prop :=
  ∃ last, ReflTransGen (Waiting setting deadline) crowd last
    ∧ ((last.allOver = true ∧ result = (last, 0))
      ∨ (last.allOver = false ∧ deadline ≤ last.now ∧ result = (last.abort, last.stillDraining)))

/-- **Nobody is left behind.** Every user has ended, none is missing, and the number is that of those
who had not ended when the time was over. -/
structure Settled (setting : Setting) (deadline : Nat) (crowd : Crowd) (result : Crowd × Nat) : Prop where
  allOver : ∀ user ∈ result.1.users, user.activity.isOver = true
  ids : result.1.users.map (·.id) = crowd.users.map (·.id)
  ending : ∃ last, ReflTransGen (Waiting setting deadline) crowd last
    ∧ ((last.allOver = true ∧ result = (last, 0))
      ∨ (last.now = deadline ∧ 0 < result.2
        ∧ result.2 = last.users.countP (fun user => !user.activity.isOver)
        ∧ result.1.users = last.users.map fun user =>
          if user.activity.isOver then user else { user with activity := .aborted }))

theorem Tracked.waiting {after : Crowd} (h : crowd.Tracked) (hnow : crowd.now ≤ deadline)
    (step : Waiting setting deadline crowd after) : InPlace crowd after ∧ after.now ≤ deadline := by
  cases step with
  | turn mem can =>
      have hturn : Turn setting crowd _ _ := turn_stepUser can
      exact ⟨hturn.inPlace h.numbered mem (awake_of_canStep can), hturn.now_eq ▸ hnow⟩
  | pass later intime => exact ⟨.ofUsers rfl rfl rfl rfl, intime⟩

theorem Tracked.waitingAll {last : Crowd} (h : crowd.Tracked) (hnow : crowd.now ≤ deadline)
    (steps : ReflTransGen (Waiting setting deadline) crowd last) :
    InPlace crowd last ∧ last.now ≤ deadline := by
  induction steps with
  | refl => exact ⟨.ofUsers rfl rfl rfl rfl, hnow⟩
  | tail _ step ih =>
      obtain ⟨hplace, hnow'⟩ := ih
      obtain ⟨hstep, hlast⟩ := (h.inPlace hplace).waiting hnow' step
      exact ⟨hplace.trans hstep, hlast⟩

/-- However users take their turns, waiting for a pool that was told to stop leaves nobody behind. -/
theorem Tracked.settled {result : Crowd × Nat} (h : crowd.Tracked) (hactive : crowd.active = [])
    (hnow : crowd.now ≤ deadline) (drains : Drains setting deadline crowd result) :
    Settled setting deadline crowd result := by
  obtain ⟨last, steps, hend⟩ := drains
  obtain ⟨hplace, hlast⟩ := h.waitingAll hnow steps
  have htracked := h.inPlace hplace
  have hnobody : last.active = [] := hplace.active.trans hactive
  rcases hend with ⟨hover, rfl⟩ | ⟨hover, hlate, rfl⟩
  · exact ⟨List.all_eq_true.mp hover, hplace.ids, last, steps, .inl ⟨hover, rfl⟩⟩
  · have husers := htracked.users_abort hnobody
    have hcount := htracked.stillDraining_eq hnobody
    refine ⟨List.all_eq_true.mp (htracked.allOver_abort hnobody), ?_, last, steps,
      .inr ⟨Nat.le_antisymm hlast hlate, ?_, hcount, husers⟩⟩
    · rw [husers, List.map_map, ← hplace.ids]
      refine List.map_congr_left fun user _ => ?_
      by_cases hdone : user.activity.isOver = true <;> simp [hdone]
    · obtain ⟨user, mem, hawake⟩ := List.all_eq_false.mp hover
      rw [hcount, List.countP_pos_iff]
      exact ⟨user, mem, by simpa using hawake⟩

/-! ### The loop that waits -/

/-- How many turns a user that was told to stop takes at most. -/
def turnsLeft : Activity → Nat
  | .sending .. => 2
  | activity => if activity.isOver then 0 else 1

/-- How many turns all users take at most once they were told to stop. -/
def turnsOfAll (crowd : Crowd) : Nat := (crowd.users.map fun user => turnsLeft user.activity).sum

theorem turnsLeft_le_one {activity : Activity} (h : activity.isSending = false) :
    turnsLeft activity ≤ 1 := by
  cases activity <;> simp_all [turnsLeft, Activity.isSending, Activity.isOver]

theorem turnsLeft_pos {activity : Activity} (h : activity.isOver = false) : 0 < turnsLeft activity := by
  cases activity <;> simp_all [turnsLeft, Activity.isOver]

/-- Each turn of a user that was told to stop brings it nearer to its end. -/
theorem Turn.turnsOfAll_lt {after : Crowd} (turn : Turn setting crowd user after)
    (numbered : crowd.Numbered) (mem : user ∈ crowd.users) (awake : user.activity.isOver = false)
    (told : user.told = true) : after.turnsOfAll < crowd.turnsOfAll := by
  have hsum := fun f => numbered.sum_withUser mem f fun user => turnsLeft user.activity
  cases turn with
  | halt quiet h =>
      -- Who was told to stop neither waits for the end of a pause nor draws.
      obtain rfl := h.resolve_right fun ⟨untold, _⟩ => by simp [told] at untold
      have hpos := turnsLeft_pos awake
      have := hsum fun user => { user with activity := .stopped }
      have hzero : turnsLeft ({ user with activity := .stopped } : User).activity = 0 := rfl
      simp only [turnsOfAll]
      omega
  | send quiet untold running unpaused => simp [told] at untold
  | @record parameters exchange due sending arrived =>
      have hle := turnsLeft_le_one (activity_afterIteration setting.plan crowd.now user).1
      have htwo : turnsLeft user.activity = 2 := by rw [sending]; rfl
      have := hsum (·.afterIteration setting.plan crowd.now)
      have hafter : (crowd.endIteration setting user parameters exchange).users
          = (crowd.withUser user.id (·.afterIteration setting.plan crowd.now)).users := rfl
      simp only [turnsOfAll, hafter]
      omega

/-- Whether the loop goes on without letting time pass. -/
def isReady (deadline : Nat) (crowd : Crowd) : Bool :=
  crowd.allOver || decide (deadline ≤ crowd.now) || crowd.runnable?.isSome

/-- More steps than this the loop does not take: time passes at most once between two turns. -/
def stepsLeft (deadline : Nat) (crowd : Crowd) : Nat :=
  2 * crowd.turnsOfAll + if crowd.isReady deadline then 0 else 1

theorem stepsLeft_le (deadline : Nat) (crowd : Crowd) :
    crowd.stepsLeft deadline ≤ 2 * crowd.turnsOfAll + 1 := by
  unfold stepsLeft
  split <;> omega

theorem turnsLeft_le_two (activity : Activity) : turnsLeft activity ≤ 2 := by
  cases activity <;> simp [turnsLeft, Activity.isOver]

theorem turnsOfAll_le (crowd : Crowd) : crowd.turnsOfAll ≤ 2 * crowd.users.length := by
  unfold turnsOfAll
  induction crowd.users with
  | nil => exact Nat.le_refl 0
  | cons user rest ih =>
      have := turnsLeft_le_two user.activity
      simp only [List.map_cons, List.sum_cons, List.length_cons]
      omega

/-- A user that was told to stop and cannot go on waits for a request that is due later. -/
theorem due_of_not_canStep (awake : user.activity.isOver = false) (told : user.told = true)
    (h : crowd.canStep user = false) : ∃ due, user.activity.due? = some due ∧ crowd.now < due
      ∧ ∀ now, due ≤ now → { crowd with now }.canStep user = true := by
  cases hactivity : user.activity with
  | sending parameters exchange due =>
      refine ⟨due, rfl, ?_, fun now later => ?_⟩
      · simpa [canStep, User.canStep, hactivity] using h
      · simpa [canStep, User.canStep, hactivity] using later
  | _ => simp_all [canStep, User.canStep, Activity.isOver]

/-- Where nobody can go on and somebody has not ended, somebody goes on at the next time that anyone
waits for. -/
theorem exists_nextDue (htold : ∀ user ∈ crowd.users, user.told = true) (hover : crowd.allOver = false)
    (hnone : crowd.runnable? = none) : ∃ due, crowd.nextDue? = some due ∧ crowd.now < due
      ∧ { crowd with now := due }.runnable?.isSome = true := by
  have hstuck : ∀ user ∈ crowd.users, crowd.canStep user = false := fun user mem => by
    simpa using List.find?_eq_none.mp hnone user mem
  have hdue : ∀ user ∈ crowd.users, user.activity.isOver = false → ∃ due, user.activity.due? = some due
      ∧ crowd.now < due ∧ ∀ now, due ≤ now → { crowd with now }.canStep user = true :=
    fun user mem awake => due_of_not_canStep awake (htold user mem) (hstuck user mem)
  obtain ⟨waiter, hwaiter, hawake⟩ := List.all_eq_false.mp hover
  obtain ⟨first, hfirst, -, -⟩ := hdue waiter hwaiter (by simpa using hawake)
  cases hmin : crowd.nextDue? with
  | none =>
      have hempty := List.min?_eq_none_iff.mp hmin
      have : first ∈ crowd.users.filterMap fun user => user.activity.due? :=
        List.mem_filterMap.mpr ⟨waiter, hwaiter, hfirst⟩
      simp [hempty] at this
  | some due =>
      obtain ⟨user, mem, hsome⟩ := List.mem_filterMap.mp (List.min?_mem hmin)
      have awake : user.activity.isOver = false := by
        cases hactivity : user.activity <;> simp_all [Activity.due?, Activity.isOver]
      obtain ⟨due', hdue', hlater, hcan⟩ := hdue user mem awake
      obtain rfl : due' = due := by simpa [hsome] using hdue'.symm
      exact ⟨due', rfl, hlater, List.find?_isSome.mpr ⟨user, mem, hcan due' (Nat.le_refl _)⟩⟩

/-- Where nobody can go on, letting time pass brings the loop nearer to its end. -/
theorem stepsLeft_pass_lt {due : Nat} (hover : crowd.allOver = false) (hearly : crowd.now < deadline)
    (hnone : crowd.runnable? = none) (hready : { crowd with now := due }.runnable?.isSome = true) :
    ({ crowd with now := min due deadline } : Crowd).stepsLeft deadline < crowd.stepsLeft deadline := by
  -- Either somebody can go on at the new time, or the new time is the deadline.
  have hafter : ({ crowd with now := min due deadline } : Crowd).isReady deadline = true := by
    rcases Nat.le_total due deadline with hle | hle
    · rw [Nat.min_eq_left hle]
      simp [isReady, hready]
    · simp [isReady, hle]
  have hbefore : crowd.isReady deadline = false := by
    simp [isReady, hover, hnone, Nat.not_le.mpr hearly]
  have hsame : ({ crowd with now := min due deadline } : Crowd).turnsOfAll = crowd.turnsOfAll := rfl
  simp only [stepsLeft, hafter, hbefore, hsame, if_true, Bool.false_eq_true, if_false]
  omega

/-- With enough steps the loop waits until all have ended or the time is over. -/
theorem Tracked.drains_drainUntil {fuel : Nat} (h : crowd.Tracked) (hactive : crowd.active = [])
    (hfuel : crowd.stepsLeft deadline < fuel) :
    Drains setting deadline crowd (drainUntil setting deadline fuel crowd) := by
  induction fuel generalizing crowd with
  | zero => omega
  | succ fuel ih =>
      -- Nobody counts toward the target, so everybody has been told to stop.
      have htold : ∀ user ∈ crowd.users, user.told = true := by
        intro user mem
        rw [h.told user mem, hactive]
        exact List.not_mem_nil
      unfold drainUntil
      by_cases hover : crowd.allOver = true
      · rw [if_pos hover]
        exact ⟨crowd, .refl, .inl ⟨hover, rfl⟩⟩
      rw [if_neg hover]
      by_cases hlate : deadline ≤ crowd.now
      · rw [if_pos hlate]
        exact ⟨crowd, .refl, .inr ⟨by simpa using hover, hlate, rfl⟩⟩
      rw [if_neg hlate]
      cases hrun : crowd.runnable? with
      | some user =>
          have mem := List.mem_of_find?_eq_some hrun
          have can : crowd.canStep user = true := List.find?_some hrun
          have hturn : Turn setting crowd user (crowd.stepUser setting user) := turn_stepUser can
          have hplace := hturn.inPlace h.numbered mem (awake_of_canStep can)
          have hless := hturn.turnsOfAll_lt h.numbered mem (awake_of_canStep can) (htold user mem)
          have hsteps := stepsLeft_le deadline (crowd.stepUser setting user)
          have hnow : 2 * crowd.turnsOfAll ≤ crowd.stepsLeft deadline := Nat.le_add_right ..
          obtain ⟨last, steps, hend⟩ :=
            ih (h.inPlace hplace) (hplace.active.trans hactive) (by omega)
          exact ⟨last, .head (.turn mem can) steps, hend⟩
      | none =>
          obtain ⟨due, hdue, hlater, hready⟩ := exists_nextDue htold (by simpa using hover) hrun
          rw [hdue, Option.getD_some]
          have hplace : InPlace crowd { crowd with now := min due deadline } := .ofUsers rfl rfl rfl rfl
          have hless := stepsLeft_pass_lt (by simpa using hover) (Nat.lt_of_not_le hlate) hrun hready
          obtain ⟨last, steps, hend⟩ := ih (h.inPlace hplace) hactive (by omega)
          exact ⟨last, .head (.pass (by omega) (Nat.min_le_right ..)) steps, hend⟩

/-! ### The history of a pool -/

/-- What can happen to a pool: it is scaled or reaped, one of its users takes a turn or ends for whatever
reason, and the run around it goes on. -/
inductive PoolStep (setting : Setting) (crowd : Crowd) : Crowd → Prop where
  | scale (target : Nat) : PoolStep setting crowd (crowd.scaleTo setting target)
  | reap : PoolStep setting crowd crowd.reap
  | turn {user : User} (mem : user ∈ crowd.users) (can : crowd.canStep user = true) :
      PoolStep setting crowd (crowd.stepUser setting user)
  | finish {user : User} {activity : Activity} (mem : user ∈ crowd.users)
      (hover : activity.isOver = true) :
      PoolStep setting crowd (crowd.withUser user.id fun user => { user with activity })
  | outside (now : Nat) (control : Control) (cancelled : Bool) :
      PoolStep setting crowd { crowd with now, control, cancelled }

theorem Tracked.poolStep {after : Crowd} (h : crowd.Tracked) (step : PoolStep setting crowd after) :
    after.Tracked := by
  cases step with
  | scale target => exact h.scaleTo target
  | reap => exact h.reap
  | turn mem can => exact h.stepUser mem can
  | finish mem hover => exact h.inPlace (.ofWithUser h.numbered mem (fun _ => rfl) rfl fun _ => hover)
  | outside now control cancelled => exact h.inPlace (.ofUsers rfl rfl rfl rfl)

theorem tracked_of_history {sink : Metric.Sink} (history : ReflTransGen (PoolStep setting) { sink } crowd) :
    crowd.Tracked := by
  induction history with
  | refl => exact tracked_empty sink
  | tail _ step ih => exact ih.poolStep step

/-- **No user is lost, and the newest stop first.** After any history every user is in one place, and
scaling and reaping do what they say. A shutdown, in whatever order users take their turns, leaves
everybody ended or aborted; and the loop that waits is such a shutdown if it may take a few steps for each
user. -/
theorem no_user_lost {setting : Setting} {sink : Metric.Sink} {crowd : Crowd}
    (history : ReflTransGen (PoolStep setting) { sink } crowd) :
    crowd.Tracked
      ∧ (∀ target, Scaled target crowd (crowd.scaleTo setting target))
      ∧ Swept crowd crowd.reap
      ∧ (crowd.scaleTo setting 0).users.map (·.id) = crowd.users.map (·.id)
      ∧ (∀ grace : Duration, ∀ result,
          Drains setting (moment (crowd.now + grace.nanos)) (crowd.scaleTo setting 0) result →
          Settled setting (moment (crowd.now + grace.nanos)) (crowd.scaleTo setting 0) result)
      ∧ ∀ grace : Duration, ∀ fuel, 4 * crowd.users.length + 1 < fuel →
          Drains setting (moment (crowd.now + grace.nanos)) (crowd.scaleTo setting 0)
            (crowd.shutdown setting grace fuel) := by
  have h := tracked_of_history history
  have hzero : (crowd.scaleTo setting 0).Tracked := h.scaleTo 0
  have hscaled : Scaled 0 crowd (crowd.scaleTo setting 0) := h.scaled 0
  have hactive : (crowd.scaleTo setting 0).active = [] := List.length_eq_zero_iff.mp hscaled.live
  have hnow : (crowd.scaleTo setting 0).now = crowd.now := (now_scaleTo setting crowd 0).1
  have hlength : (crowd.scaleTo setting 0).users.length = crowd.users.length := by
    rw [hscaled.length, Nat.zero_sub, Nat.add_zero]
  refine ⟨h, h.scaled, swept_reap crowd, ?_, ?_, ?_⟩
  · rw [hzero.numbered, h.numbered, hlength]
  · intro grace result drains
    refine hzero.settled hactive ?_ drains
    rw [hnow]
    exact Nat.le_trans (Nat.le_add_right ..) (le_moment _)
  · intro grace fuel hfuel
    have hturns := turnsOfAll_le (crowd.scaleTo setting 0)
    have hsteps := stepsLeft_le (moment (crowd.now + grace.nanos)) (crowd.scaleTo setting 0)
    rw [shutdown, hnow]
    exact hzero.drains_drainUntil hactive (by omega)

/-- A run against a target that takes half a minute for every answer. -/
def slow : Setting where
  plan := .ofSchedule "http://t" .couponIssue (.shared 1 {}) ⟨[⟨.ofSeconds 1, 3⟩], by decide, by decide⟩
  target := fun _ _ => ⟨.ofSeconds 30, .ok ⟨409, .ofSeconds 30, []⟩⟩

theorem PoolStep.first (h : crowd.runnable?.isSome = true) :
    PoolStep setting crowd (crowd.stepUser setting (crowd.runnable?.get h)) :=
  .turn (List.mem_of_find?_eq_some (Option.some_get h).symm)
    (List.find?_some (Option.some_get h).symm)

/-- Of four users, of whom one was forgotten, a shutdown of one second has to abort the two that wait
for an answer. -/
theorem two_users_aborted : ∃ crowd : Crowd,
    ReflTransGen (PoolStep slow) { sink := slow.plan.scenario.sink 1 } crowd
      ∧ crowd.active = [4, 1] ∧ crowd.draining = [2] ∧ reaped crowd.log = [3] ∧ crowd.Tracked
      ∧ Settled slow (moment (crowd.now + Duration.nanos (.ofSeconds 1))) (crowd.scaleTo slow 0)
        (crowd.shutdown slow (.ofSeconds 1) 18)
      ∧ (crowd.shutdown slow (.ofSeconds 1) 18).2 = 2 := by
  have history : ReflTransGen (PoolStep slow) { sink := slow.plan.scenario.sink 1 } _ :=
    .tail (.tail (.tail (.tail (.tail (.tail (.tail .refl (.scale 3)) (.first (by decide +kernel)))
      (.first (by decide +kernel))) (.scale 1)) (.first (by decide +kernel))) .reap) (.scale 2)
  obtain ⟨htracked, -, -, -, hsettled, hdrains⟩ := no_user_lost history
  refine ⟨_, history, by decide +kernel, by decide +kernel, by decide +kernel, htracked, ?_,
    by decide +kernel⟩
  exact hsettled _ _ (hdrains _ 18 (by decide +kernel))

end Crowd

end LoadTest.Simulation
