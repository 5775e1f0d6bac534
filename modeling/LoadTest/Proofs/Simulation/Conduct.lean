import LoadTest.Proofs.Simulation.Change
import LoadTest.Proofs.Simulation.Life

/-!
# LoadTest.Proofs.Simulation.Conduct

How users behave in a run. **A user begins a request only where it may:** it has not been told to stop, the
run is neither cancelled nor paused, no other request of its own is under way, and its limit is not
reached. **A request that has been begun is waited for,** whatever happens meanwhile, unless its user is
aborted when the time to finish is over. A user that has reached its limit keeps its place until fewer
users are asked for.
-/

namespace LoadTest.Simulation

open Crowd Relation

variable {setting : Setting}

/-! ### Limits -/

/-- A user is within a limit, and has stopped if it has reached it. -/
def User.Within (limit : Nat) (user : User) : Prop :=
  user.completed ≤ limit ∧ (user.completed = limit → user.activity = .stopped)

theorem User.Within.lt {limit : Nat} {user : User} (h : user.Within limit)
    (awake : user.activity.isOver = false) : user.completed < limit := by
  refine Nat.lt_of_le_of_ne h.1 fun hall => ?_
  rw [h.2 hall] at awake
  cases awake

theorem User.within_of_lt {limit : Nat} {user : User} (h : user.completed < limit) : user.Within limit :=
  ⟨Nat.le_of_lt h, fun hall => absurd hall (Nat.ne_of_lt h)⟩

theorem within_afterIteration {plan : Plan} {limit : UInt64} (limited : plan.iterations = some limit)
    {user : User} (h : user.completed < limit.toNat) (now : Nat) :
    (user.afterIteration plan now).Within limit.toNat := by
  refine ⟨?_, fun hall => ?_⟩
  · rw [completed_afterIteration]
    exact h
  · rw [completed_afterIteration] at hall
    simp [User.afterIteration, User.isSpent, limited, hall]

namespace Crowd

variable {crowd after : Crowd} {user : User}

theorem exists_of_mem_withUser {id : Nat} {f : User → User} {user' : User}
    (mem : user' ∈ (crowd.withUser id f).users) :
    ∃ user ∈ crowd.users, user' = f user ∨ user' = user := by
  obtain ⟨i, hget⟩ := List.getElem?_of_mem mem
  rw [getElem?_withUser] at hget
  obtain ⟨user, huser, heq⟩ := Option.map_eq_some_iff.mp hget
  refine ⟨user, List.mem_of_getElem? huser, ?_⟩
  split at heq
  · exact .inl heq.symm
  · exact .inr heq.symm

/-- What a user does next, within the limit of the plan. -/
theorem Turn.within {limit : UInt64} (turn : Turn setting crowd user after) (numbered : crowd.Numbered)
    (mem : user ∈ crowd.users) (awake : user.activity.isOver = false)
    (limited : setting.plan.iterations = some limit) (h : ∀ user ∈ crowd.users, user.Within limit.toNat) :
    ∀ user' ∈ after.users, user'.Within limit.toNat := by
  have hlt : user.completed < limit.toNat := (h user mem).lt awake
  have hwith : ∀ f : User → User, (f user).Within limit.toNat →
      ∀ user' ∈ (crowd.withUser user.id f).users, user'.Within limit.toNat := by
    intro f hf user' mem'
    rcases (numbered.mem_withUser mem).mp mem' with rfl | ⟨hold, -⟩
    · exact hf
    · exact h user' hold
  -- Only recording an iteration brings a user nearer to its limit.
  cases turn with
  | halt quiet hactivity => exact hwith _ (User.within_of_lt hlt)
  | send quiet untold running unpaused => exact hwith _ (User.within_of_lt hlt)
  | record sending arrived => exact hwith _ (within_afterIteration limited hlt crowd.now)

theorem Move.within {limit : UInt64} (move : Move setting crowd after) (tracked : crowd.Tracked)
    (limited : setting.plan.iterations = some limit) (pos : 0 < limit.toNat)
    (h : ∀ user ∈ crowd.users, user.Within limit.toNat) :
    ∀ user' ∈ after.users, user'.Within limit.toNat := by
  cases move with
  | spawn =>
      intro user' mem
      rcases List.mem_append.mp mem with hold | hnew
      · exact h user' hold
      · rw [List.mem_singleton.mp hnew]
        exact User.within_of_lt pos
  | dismiss =>
      unfold Crowd.dismiss
      cases crowd.active with
      | nil => exact h
      | cons id active =>
          intro user' mem
          obtain ⟨user, hold, rfl | rfl⟩ := exists_of_mem_withUser mem
          · exact h user hold
          · exact h _ hold
  | reap =>
      rw [(swept_reap crowd).users]
      exact h
  | turn mem can =>
      exact (turn_stepUser can).within tracked.numbered mem (awake_of_canStep can) limited h
  | @abort user mem awake expired =>
      intro user' mem'
      rcases (tracked.numbered.mem_withUser mem).mp mem' with rfl | ⟨hold, -⟩
      · exact User.within_of_lt ((h user mem).lt awake)
      · exact h user' hold
  | probe request => exact h
  | tick clock target => exact h
  | check taken verdict => exact h
  | close => exact h
  | outside later kept => exact h

/-- **Nobody exceeds the limit of the plan,** and whoever has reached it has stopped. -/
theorem within_of_moves {limit : UInt64} (limited : setting.plan.iterations = some limit)
    (pos : 0 < limit.toNat) (moves : Moves setting (initial setting) crowd) :
    ∀ user ∈ crowd.users, user.Within limit.toNat := by
  induction moves with
  | refl => exact List.forall_mem_nil _
  | tail earlier move ih => exact move.within (tracked_of_moves earlier) limited pos ih

/-! ### Requests -/

/-- **A user may begin a request.** -/
structure MayBegin (setting : Setting) (crowd : Crowd) (user : User) : Prop where
  untold : user.told = false
  running : crowd.cancelled = false
  unpaused : crowd.control.paused = false
  quiet : user.activity.isSending = false
  below : ∀ limit, setting.plan.iterations = some limit → 0 < limit.toNat → user.completed < limit.toNat

/-- Requests have been begun by certain users only. -/
def Begun (before after : Crowd) (allowed : Nat → Prop) : Prop :=
  NotesOnly (fun event => ∀ id request, event = .sent id request → allowed id) before after

theorem Idle.begun (h : Idle crowd after) (allowed : Nat → Prop) : Begun crowd after allowed := by
  refine h.unlived.mono fun event hnone id request heq => ?_
  rw [heq] at hnone
  cases hnone

/-- Users that are aborted begin nothing. -/
theorem begun_abort (crowd : Crowd) (allowed : Nat → Prop) : Begun crowd crowd.abort allowed := by
  rw [abort]
  refine ⟨_, log_foldl_abortUser _ crowd, fun entry mem id request heq => ?_⟩
  obtain ⟨id, -, rfl⟩ := List.mem_map.mp (List.mem_reverse.mp mem)
  cases heq

/-- In a turn a request is begun only by the user whose turn it is. -/
theorem Turn.begun (turn : Turn setting crowd user after) (mem : user ∈ crowd.users)
    (below : ∀ limit, setting.plan.iterations = some limit → 0 < limit.toNat →
      user.completed < limit.toNat) :
    Begun crowd after fun id => ∃ user ∈ crowd.users, user.id = id ∧ MayBegin setting crowd user := by
  cases turn with
  | halt quiet hactivity => exact .of_log rfl
  | send quiet untold running unpaused =>
      refine .single rfl fun id request heq => ?_
      obtain ⟨rfl, -⟩ := Event.sent.inj heq
      exact ⟨user, mem, rfl, untold, running, unpaused, quiet, below⟩
  | record sending arrived => exact .single rfl fun id request heq => by cases heq

/-- **What can become of a request under way.** -/
inductive Awaits (setting : Setting) (crowd after : Crowd) (user : User) (parameters : Parameters)
    (exchange : Exchange) (due : Nat) : Prop where
  /-- It is still waited for. -/
  | kept (keeps : after.Keeps user)
  /-- It is recorded once its reply has arrived. -/
  | recorded {user' : User} (arrived : due ≤ crowd.now) (mem : user' ∈ after.users)
      (hid : user'.id = user.id) (hcompleted : user'.completed = user.completed + 1)
      (hlog : after.log = (crowd.now, .recorded user.id parameters
        (Outcome.classify setting.plan.scenario exchange parameters) exchange) :: crowd.log)
  /-- Its user is aborted, since the time to finish is over. -/
  | lost {user' : User} (mem : user' ∈ after.users) (hid : user'.id = user.id)
      (haborted : user'.activity = .aborted) (expired : Expired setting crowd.log crowd.now)

/-- A turn lets every request under way go on, or records the one whose user has the turn. -/
theorem Turn.awaits {other : User} {parameters : Parameters} {exchange : Exchange} {due : Nat}
    (turn : Turn setting crowd user after) (numbered : crowd.Numbered) (mem : user ∈ crowd.users)
    (hother : other ∈ crowd.users) (sending : other.activity = .sending parameters exchange due) :
    Awaits setting crowd after other parameters exchange due := by
  have hkept : ∀ f : User → User, other.id ≠ user.id →
      other ∈ (crowd.withUser user.id f).users := fun f hne =>
    (numbered.mem_withUser mem).mpr (.inr ⟨hother, hne⟩)
  by_cases hid : other.id = user.id
  -- A user that waits for a reply can do nothing but record it.
  · obtain rfl := numbered.eq_of_id hother mem hid
    cases turn with
    | halt quiet hactivity => simp [sending, Activity.isSending] at quiet
    | send quiet untold running unpaused => simp [sending, Activity.isSending] at quiet
    | @record parameters' exchange' due' sending' arrived =>
        obtain ⟨rfl, rfl, rfl⟩ := Activity.sending.inj (sending'.symm.trans sending)
        refine .recorded arrived ((numbered.mem_withUser mem).mpr (.inl rfl)) ?_ ?_ rfl
        · exact id_afterIteration setting.plan crowd.now other
        · exact completed_afterIteration setting.plan crowd.now other
  · cases turn with
    | halt quiet hactivity => exact .kept ⟨other, hkept _ hid, rfl, rfl, rfl⟩
    | send quiet untold running unpaused => exact .kept ⟨other, hkept _ hid, rfl, rfl, rfl⟩
    | record sending' arrived => exact .kept ⟨other, hkept _ hid, rfl, rfl, rfl⟩

end Crowd

namespace State

variable {state next : State} {upcoming : List (Nat × Command)} {cancelAt : Option Nat}

theorem Onward.idle {allowed : Phase → Prop} (onward : Onward allowed state next) :
    Idle state.crowd next.crowd := by
  obtain ⟨shownLive, probed, -⟩ := onward
  exact probed.spared.toIdle

/-- In a step requests are begun only by users that may. -/
theorem Change.begun (change : Change setting state next)
    (below : ∀ user ∈ state.crowd.users, user.activity.isOver = false →
      ∀ limit, setting.plan.iterations = some limit → 0 < limit.toNat → user.completed < limit.toNat) :
    Begun state.crowd next.crowd fun id =>
      ∃ user ∈ state.crowd.users, user.id = id ∧ MayBegin setting state.crowd user := by
  cases change with
  | pass later => exact .of_log rfl
  | deliver next => exact .of_log rfl
  | cancel due => exact .of_log rfl
  | turn mem can turn => exact turn.begun mem (below _ mem (awake_of_canStep can))
  | begin early onward => exact onward.idle.begun _
  | look loading look => exact look.idle.begun _
  | finish draining late onward => exact (begun_abort state.crowd _).trans (onward.idle.begun _)
  | report restocking onward => exact onward.idle.begun _

/-- In a step a request under way is lost only if the time to finish is over. -/
theorem Sound.awaits {user : User} {parameters : Parameters} {exchange : Exchange} {due : Nat}
    (h : Sound setting state) (change : Change setting state next) (mem : user ∈ state.crowd.users)
    (sending : user.activity = .sending parameters exchange due) :
    Awaits setting state.crowd next.crowd user parameters exchange due := by
  have htracked := tracked_of_moves h.moves
  have hself : state.crowd.Keeps user := ⟨user, mem, rfl, rfl, rfl⟩
  cases change with
  | pass later => exact .kept hself
  | deliver next => exact .kept hself
  | cancel due => exact .kept hself
  | turn hother can turn => exact turn.awaits htracked.numbered hother mem sending
  | begin early onward => exact .kept (onward.idle.users user mem)
  | look loading look => exact .kept (look.idle.users user mem)
  | @finish next load deadline draining late onward =>
      have hfits := h.fits
      rw [draining] at hfits
      obtain ⟨hactive, ⟨time, cancelled, hclosed, rfl⟩, -⟩ := hfits
      have hawake : user.activity.isOver = false := by rw [sending]; rfl
      -- The user has not ended, so the time must be over.
      have hlate := late.resolve_left fun hover => by
        simp [List.all_eq_true.mp hover user mem] at hawake
      have haborted : { user with activity := .aborted } ∈ state.crowd.abort.users := by
        rw [htracked.users_abort hactive]
        exact List.mem_map.mpr ⟨user, mem, by simp [hawake]⟩
      obtain ⟨user', mem', hid, -, hactivity⟩ := onward.idle.users _ haborted
      exact .lost mem' hid hactivity ⟨time, cancelled, hclosed, hlate⟩
  | report restocking onward => exact .kept (onward.idle.users user mem)

/-- A user gives up its place only where fewer users are asked for than there are, or the load ends. -/
theorem Change.live_lt {id : Nat} (change : Change setting state next) (mem : id ∈ state.crowd.active)
    (gone : id ∉ next.crowd.active) : (∃ load tick, state.phase = .loading load tick)
      ∧ next.crowd.live < state.crowd.live := by
  cases change with
  | pass later => exact absurd mem gone
  | deliver next => exact absurd mem gone
  | cancel due => exact absurd mem gone
  | turn hmem can turn => exact absurd mem (turn.active_eq ▸ gone)
  | begin early onward => exact absurd mem (onward.length_eq.2 ▸ gone)
  | look loading look => exact ⟨⟨_, _, loading⟩, look.live_lt mem gone⟩
  | finish draining late onward =>
      rw [onward.length_eq.2, (active_abort state.crowd).2] at gone
      exact absurd mem gone
  | report restocking onward => exact absurd mem (onward.length_eq.2 ▸ gone)

/-- **Users behave.** -/
structure Behaves (setting : Setting) (state : State) : Prop where
  /-- Each user records what became of a request before it begins another. -/
  lives : ∀ user ∈ state.crowd.users,
    LeadsTo setting user.id user.completed user.activity (life user.id state.crowd.log)
  begun : ∀ next, Step setting state next → Begun state.crowd next.crowd fun id =>
    ∃ user ∈ state.crowd.users, user.id = id ∧ MayBegin setting state.crowd user
  awaits : ∀ next, Step setting state next → ∀ user ∈ state.crowd.users, ∀ parameters exchange due,
    user.activity = .sending parameters exchange due →
    Awaits setting state.crowd next.crowd user parameters exchange due
  within : ∀ limit, setting.plan.iterations = some limit → 0 < limit.toNat →
    ∀ user ∈ state.crowd.users, user.Within limit.toNat
  /-- Whoever has not been told to stop counts, also when it has reached its limit. -/
  told : ∀ user ∈ state.crowd.users, user.told = false ↔ user.id ∈ state.crowd.active
  places : ∀ next, Step setting state next → ∀ id ∈ state.crowd.active, id ∉ next.crowd.active →
    (∃ load tick, state.phase = .loading load tick) ∧ next.crowd.live < state.crowd.live
  /-- New users are as many as are missing when all that count are counted. -/
  spawns : ∀ next, Step setting state next → next.crowd.users.length ≠ state.crowd.users.length →
    ∃ load tick, state.phase = .loading load tick
      ∧ next.crowd.users.length = state.crowd.users.length + (state.asked setting load - state.crowd.live)

/-- **In every run users behave,** whatever is commanded, whenever the run is cancelled, however late the
target answers, and in whatever order users and run go on. -/
theorem users_behave (reaches : Reaches setting upcoming cancelAt state) : Behaves setting state := by
  have hsound := sound_of_reaches reaches
  have htracked := tracked_of_moves hsound.moves
  have hwithin : ∀ limit, setting.plan.iterations = some limit → 0 < limit.toNat →
      ∀ user ∈ state.crowd.users, user.Within limit.toNat := fun limit limited pos =>
    within_of_moves limited pos hsound.moves
  refine {
    lives := (accounted_of_moves hsound.moves).lives
    begun := fun next step => ?_
    awaits := fun next step user mem parameters exchange due => hsound.awaits step.change mem
    within := hwithin
    told := fun user mem => ?_
    places := fun next step id => step.change.live_lt
    spawns := fun next step hne => ?_ }
  · refine step.change.begun ?_
    intro user mem awake limit limited pos
    exact (hwithin limit limited pos user mem).lt awake
  · have htold := htracked.told user mem
    rw [← Bool.not_eq_true, htold, not_not]
  · obtain ⟨load, tick, loading, hlength, -⟩ := step.change.length_eq.resolve_left hne
    exact ⟨load, tick, loading, hlength⟩

/-! ### A short run -/

/-- A run of two users, who each do two iterations. -/
def brief : Setting where
  plan := { Plan.ofSchedule "http://t" .couponIssue (.shared 1 ⟨10, 0, 1⟩)
      ⟨[⟨.zero, 2⟩, ⟨.ofMillis 500, 2⟩], by decide, by decide⟩ with
    thinkTime := ⟨.zero, .zero⟩
    iterations := some (.ofNat 2) }
  target := fun _ _ => ⟨.ofMillis 30, .error (.connection "refused")⟩

/-- That run after two hundred milliseconds. -/
def briefly : State := (start brief [] none).run brief 14

/-- Both users have stopped at their limit; a look since then has found them there and spawned nobody. -/
theorem two_users_keep_places : Reaches brief [] none briefly ∧ Behaves brief briefly
    ∧ briefly.crowd.users.map (fun user => (user.completed, user.activity)) = [(2, .stopped), (2, .stopped)]
    ∧ briefly.crowd.active = [2, 1] ∧ looks briefly.crowd.log = [2, 2] := by
  have reaches : Reaches brief [] none briefly := reaches_run brief [] none 14
  obtain ⟨husers, hactive, hlooks⟩ : briefly.crowd.users.map (fun user => (user.completed, user.activity))
        = [(2, .stopped), (2, .stopped)]
      ∧ briefly.crowd.active = [2, 1] ∧ looks briefly.crowd.log = [2, 2] := by decide +kernel
  exact ⟨reaches, users_behave reaches, husers, hactive, hlooks⟩

end State

end LoadTest.Simulation
