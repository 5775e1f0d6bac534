import LoadTest.Proofs.Simulation.Pool

/-!
# LoadTest.Proofs.Simulation.Turn

One turn of a user. **A user that can go on either halts, sends one request, or records what became of
the one it had sent** (`Crowd.Turn`). Every later fact about what users do is read off these three cases
and not off the functions that compute them.
-/

namespace LoadTest.Simulation

/-- Whether a request has been sent whose outcome is still to come. -/
def Activity.isSending : Activity → Bool
  | .sending .. => true
  | _ => false

/-- The user to whose life an event belongs: it sent a request, recorded one, or was aborted. -/
def Event.user? : Event → Option Nat
  | .sent user _ | .recorded user _ _ _ | .aborted user => some user
  | _ => none

/-- Whether an event is a check of the thresholds. -/
def Event.isCheck : Event → Bool
  | .checked .. => true
  | _ => false

/-- Whether an event is the request of a user. -/
def Event.isSent : Event → Bool
  | .sent .. => true
  | _ => false

namespace Crowd

variable {setting : Setting} {crowd after : Crowd} {user : User}

/-- What a user that can go on does. -/
inductive Turn (setting : Setting) (crowd : Crowd) (user : User) : Crowd → Prop where
  /-- It should stop; otherwise the run is paused, or there is nothing to draw from. -/
  | halt {activity : Activity} (quiet : user.activity.isSending = false)
      (h : activity = .stopped ∨ (user.told = false ∧ crowd.cancelled = false
        ∧ (activity = .crashed ∨ ∃ resumes, activity = .paused resumes))) :
      Turn setting crowd user (crowd.withUser user.id fun user => { user with activity })
  | send {parameters : Parameters} {words : Workload.Words} (quiet : user.activity.isSending = false)
      (untold : user.told = false) (running : crowd.cancelled = false)
      (unpaused : crowd.control.paused = false) :
      Turn setting crowd user (crowd.sendRequest setting user parameters words)
  | record {parameters : Parameters} {exchange : Exchange} {due : Nat}
      (sending : user.activity = .sending parameters exchange due) (arrived : due ≤ crowd.now) :
      Turn setting crowd user (crowd.endIteration setting user parameters exchange)

theorem turn_beginIteration (quiet : user.activity.isSending = false) :
    Turn setting crowd user (crowd.beginIteration setting user) := by
  unfold beginIteration
  by_cases hstop : user.told || crowd.cancelled
  · rw [if_pos hstop]
    exact .halt quiet (.inl rfl)
  · rw [if_neg hstop]
    obtain ⟨untold, running⟩ : user.told = false ∧ crowd.cancelled = false := by simpa using hstop
    by_cases hpaused : crowd.control.paused
    · rw [if_pos hpaused]
      exact .halt quiet (.inr ⟨untold, running, .inr ⟨_, rfl⟩⟩)
    · rw [if_neg hpaused]
      cases setting.plan.workload.next? (UInt64.ofNat user.id) user.words with
      | none => exact .halt quiet (.inr ⟨untold, running, .inl rfl⟩)
      | some drawn => exact .send quiet untold running (by simpa using hpaused)

/-- A user that can go on has not ended. -/
theorem awake_of_canStep (h : crowd.canStep user = true) : user.activity.isOver = false := by
  rw [canStep, User.canStep] at h
  cases hactivity : user.activity <;> simp_all [Activity.isOver]

theorem turn_stepUser (h : crowd.canStep user = true) :
    Turn setting crowd user (crowd.stepUser setting user) := by
  have hawake := awake_of_canStep h
  unfold stepUser
  cases hactivity : user.activity with
  | sending parameters exchange due =>
      refine .record hactivity ?_
      simpa [canStep, User.canStep, hactivity] using h
  | idle => exact turn_beginIteration (by simp [hactivity, Activity.isSending])
  | ready => exact turn_beginIteration (by simp [hactivity, Activity.isSending])
  | paused resumes => exact turn_beginIteration (by simp [hactivity, Activity.isSending])
  | thinking due => exact turn_beginIteration (by simp [hactivity, Activity.isSending])
  | stopped => simp [hactivity, Activity.isOver] at hawake
  | crashed => simp [hactivity, Activity.isOver] at hawake
  | aborted => simp [hactivity, Activity.isOver] at hawake

/-! ### After an iteration -/

/-- All that recording an iteration changes: one more is completed, and the user rests or has stopped. -/
theorem afterIteration_eq (plan : Plan) (now : Nat) (user : User) : ∃ activity words,
    user.afterIteration plan now = { user with completed := user.completed + 1, activity, words }
      ∧ activity.isSending = false ∧ activity ≠ .aborted := by
  simp only [User.afterIteration, User.rest]
  split
  · exact ⟨.stopped, _, rfl, rfl, Activity.noConfusion⟩
  · split
    · exact ⟨.crashed, _, rfl, rfl, Activity.noConfusion⟩
    · refine ⟨_, _, rfl, ?_⟩
      split <;> exact ⟨rfl, Activity.noConfusion⟩

theorem id_afterIteration (plan : Plan) (now : Nat) (user : User) :
    (user.afterIteration plan now).id = user.id := by
  obtain ⟨activity, words, heq, -⟩ := afterIteration_eq plan now user
  rw [heq]

theorem told_afterIteration (plan : Plan) (now : Nat) (user : User) :
    (user.afterIteration plan now).told = user.told := by
  obtain ⟨activity, words, heq, -⟩ := afterIteration_eq plan now user
  rw [heq]

theorem completed_afterIteration (plan : Plan) (now : Nat) (user : User) :
    (user.afterIteration plan now).completed = user.completed + 1 := by
  obtain ⟨activity, words, heq, -⟩ := afterIteration_eq plan now user
  rw [heq]

/-- After recording an iteration a user has no request under way, and was not ended from outside. -/
theorem activity_afterIteration (plan : Plan) (now : Nat) (user : User) :
    (user.afterIteration plan now).activity.isSending = false
      ∧ (user.afterIteration plan now).activity ≠ .aborted := by
  obtain ⟨activity, words, heq, hactivity⟩ := afterIteration_eq plan now user
  rw [heq]
  exact hactivity

/-! ### Turns and places -/

/-- No time passes in a turn. -/
theorem Turn.now_eq (turn : Turn setting crowd user after) : after.now = crowd.now := by
  cases turn <;> rfl

/-- A turn leaves every user in its place. -/
theorem Turn.inPlace (turn : Turn setting crowd user after) (numbered : crowd.Numbered)
    (mem : user ∈ crowd.users) (awake : user.activity.isOver = false) : InPlace crowd after := by
  -- A user that takes a turn is awake, so a turn wakes nobody up.
  have hover : ∀ {p : Prop}, user.activity.isOver = true → p := fun h => by simp [awake] at h
  cases turn with
  | halt quiet h => exact .ofWithUser numbered mem (fun _ => rfl) rfl hover
  | @send parameters words quiet untold running unpaused =>
      let request := setting.plan.scenario.request setting.plan.baseUrl parameters
      have hsent : InPlace crowd (crowd.send setting request).2 := .ofUsers rfl rfl rfl rfl
      refine .trans (.trans hsent (.ofWithUser (hsent.numbered numbered) mem ?_ ?_ hover))
        (.ofNote _ ?_ ?_)
      · exact fun _ => rfl
      · rfl
      · simp
      · simp
  | @record parameters exchange due sending arrived =>
      let category := Outcome.classify setting.plan.scenario exchange parameters
      have hsink : InPlace crowd
          { crowd with sink := Outcome.record setting.plan.scenario category exchange crowd.sink } :=
        .ofUsers rfl rfl rfl rfl
      refine .trans (.trans hsink (.ofWithUser (hsink.numbered numbered) mem ?_ ?_ hover))
        (.ofNote _ ?_ ?_)
      · exact id_afterIteration setting.plan crowd.now
      · exact told_afterIteration setting.plan crowd.now user
      · simp
      · simp

theorem Tracked.stepUser (h : crowd.Tracked) (mem : user ∈ crowd.users)
    (can : crowd.canStep user = true) : (crowd.stepUser setting user).Tracked :=
  h.inPlace ((turn_stepUser can).inPlace h.numbered mem (awake_of_canStep can))

end Crowd

end LoadTest.Simulation
