import LoadTest.Proofs.Outcome.Conservation
import LoadTest.Proofs.Simulation.Move

/-!
# LoadTest.Proofs.Simulation.Life

What the log of a run tells of each user. **The life of a user is a sequence of iterations, each a request
and one record of what became of it;** it may break off only by an abort, which leaves at most one request
without a record. The sink holds what the records of all lives add to it, and nothing else.
-/

namespace LoadTest.Simulation

open Relation

/-- What an event delivers to the series of a run. -/
def Event.delivery? : Event → Option (Exchange × Parameters)
  | .recorded _ parameters _ exchange => some (exchange, parameters)
  | _ => none

theorem Event.delivery?_eq_none {event : Event} (h : event.user? = none) : event.delivery? = none := by
  cases event with
  | recorded => simp [Event.user?] at h
  | _ => rfl

namespace Crowd

variable {setting : Setting} {crowd after : Crowd} {user : User}

/-! ### The log of a user -/

/-- The exchanges recorded in a log, in the order in which they were. -/
def deliveries (log : List (Nat × Event)) : Outcome.Exchanges :=
  log.reverse.filterMap fun entry => entry.2.delivery?

/-- The events in the life of a user, the latest first. -/
def life (id : Nat) (log : List (Nat × Event)) : List (Nat × Event) :=
  log.filter fun entry => entry.2.user? = some id

theorem deliveries_cons (time : Nat) (event : Event) (log : List (Nat × Event)) :
    deliveries ((time, event) :: log) = deliveries log ++ event.delivery?.toList := by
  rw [deliveries, List.reverse_cons, List.filterMap_append, List.filterMap_cons, List.filterMap_nil]
  cases event.delivery? <;> rfl

theorem life_cons_self {id : Nat} {event : Event} (h : event.user? = some id) (time : Nat)
    (log : List (Nat × Event)) : life id ((time, event) :: log) = (time, event) :: life id log := by
  simp [life, h]

theorem life_cons_of_ne {id other : Nat} {event : Event} (h : event.user? = some id) (hne : other ≠ id)
    (time : Nat) (log : List (Nat × Event)) : life other ((time, event) :: log) = life other log := by
  simp [life, h, hne.symm]

/-- Events of no user's life change no life and deliver nothing. -/
theorem life_append {events : List (Nat × Event)} (h : ∀ entry ∈ events, entry.2.user? = none)
    (id : Nat) (log : List (Nat × Event)) : life id (events ++ log) = life id log := by
  have hnone : life id events = [] := List.filter_eq_nil_iff.mpr fun entry mem => by simp [h entry mem]
  rw [life, List.filter_append, ← life, hnone]
  rfl

theorem deliveries_append {events : List (Nat × Event)} (h : ∀ entry ∈ events, entry.2.user? = none)
    (log : List (Nat × Event)) : deliveries (events ++ log) = deliveries log := by
  have hnone : deliveries events = [] := List.filterMap_eq_nil_iff.mpr fun entry mem =>
    Event.delivery?_eq_none (h entry (List.mem_reverse.mp mem))
  rw [deliveries, List.reverse_append, List.filterMap_append, ← deliveries, ← deliveries, hnone,
    List.append_nil]

/-! ### Lives -/

/-- The request of an iteration. -/
def requestFor (setting : Setting) (parameters : Parameters) : Request :=
  setting.plan.scenario.request setting.plan.baseUrl parameters

/-- A reply is what the target says to the request of an iteration, or its timeout. -/
def Answers (setting : Setting) (parameters : Parameters) (reply : Reply) : Prop :=
  ∃ count, reply = (setting.target (requestFor setting parameters) count).within setting.plan.requestTimeout

/-- **A whole life** of so many iterations, the latest first: each request was followed by one record of
what became of it, once its reply had arrived. -/
inductive Whole (setting : Setting) (user : Nat) : Nat → List (Nat × Event) → Prop where
  | nil : Whole setting user 0 []
  | iteration {n sent recorded : Nat} {earlier : List (Nat × Event)} {parameters : Parameters}
      {reply : Reply} (whole : Whole setting user n earlier) (answers : Answers setting parameters reply)
      (arrived : moment (sent + reply.delay.nanos) ≤ recorded) :
      Whole setting user (n + 1)
        ((recorded, .recorded user parameters
            (Outcome.classify setting.plan.scenario reply.exchange parameters) reply.exchange)
          :: (sent, .sent user (requestFor setting parameters)) :: earlier)

/-- A life that was cut off after so many iterations: between two of them, or while one request was under
way. -/
inductive Cut (setting : Setting) (user n : Nat) : List (Nat × Event) → Prop where
  | between {time : Nat} {earlier : List (Nat × Event)} (whole : Whole setting user n earlier) :
      Cut setting user n ((time, .aborted user) :: earlier)
  | lost {time sent : Nat} {request : Request} {earlier : List (Nat × Event)}
      (whole : Whole setting user n earlier) :
      Cut setting user n ((time, .aborted user) :: (sent, .sent user request) :: earlier)

/-- The life of a user leads to what it does now. -/
def LeadsTo (setting : Setting) (user n : Nat) (activity : Activity) (life : List (Nat × Event)) : Prop :=
  match activity with
  | .sending parameters exchange due => ∃ sent reply earlier,
      life = (sent, .sent user (requestFor setting parameters)) :: earlier
        ∧ Whole setting user n earlier ∧ Answers setting parameters reply
        ∧ exchange = reply.exchange ∧ due = moment (sent + reply.delay.nanos)
  | .aborted => Cut setting user n life
  | _ => Whole setting user n life

theorem leadsTo_iff_whole {id n : Nat} {activity : Activity} {life : List (Nat × Event)}
    (quiet : activity.isSending = false) (unforced : activity ≠ .aborted) :
    LeadsTo setting id n activity life ↔ Whole setting id n life := by
  cases activity with
  | sending => simp [Activity.isSending] at quiet
  | aborted => exact absurd rfl unforced
  | _ => rfl

/-- **The log accounts for everything.** -/
structure Accounted (setting : Setting) (crowd : Crowd) : Prop where
  /-- The sink holds what was recorded. -/
  sink : crowd.sink = Outcome.recordAll setting.plan.scenario (deliveries crowd.log) (initial setting).sink
  lives : ∀ user ∈ crowd.users,
    LeadsTo setting user.id user.completed user.activity (life user.id crowd.log)
  /-- Nothing happens to users there never were. -/
  strangers : ∀ id, id ∉ crowd.users.map (·.id) → life id crowd.log = []
  /-- Every delivery is one of a user's. -/
  completed : (deliveries crowd.log).length = (crowd.users.map (·.completed)).sum
  /-- Nobody is aborted before the time to finish is over. -/
  patient : ∀ time user, (time, .aborted user) ∈ crowd.log → Expired setting crowd.log time

theorem accounted_initial (setting : Setting) : Accounted setting (initial setting) where
  sink := rfl
  lives := nofun
  strangers := fun _ _ => rfl
  completed := rfl
  patient := nofun

theorem Expired.mono {log later : List (Nat × Event)} {time : Nat} (sub : log ⊆ later)
    (h : Expired setting log time) : Expired setting later time := by
  obtain ⟨closed, cancelled, mem, hle⟩ := h
  exact ⟨closed, cancelled, sub mem, hle⟩

namespace Accounted

/-- A change that is no event of any life, and leaves what users do. -/
theorem quiet (h : Accounted setting crowd) (events : List (Nat × Event))
    (husers : after.users.map (fun user => (user.id, user.completed, user.activity))
      = crowd.users.map fun user => (user.id, user.completed, user.activity))
    (hsink : after.sink = crowd.sink) (hlog : after.log = events ++ crowd.log)
    (hnone : ∀ entry ∈ events, entry.2.user? = none) : Accounted setting after := by
  have hids : after.users.map (·.id) = crowd.users.map (·.id) := by
    simpa [Function.comp_def] using congrArg (List.map (·.1)) husers
  have hcompleted : after.users.map (·.completed) = crowd.users.map (·.completed) := by
    simpa [Function.comp_def] using congrArg (List.map (·.2.1)) husers
  refine ⟨?_, ?_, ?_, ?_, ?_⟩
  · rw [hsink, hlog, deliveries_append hnone, h.sink]
  · intro user mem
    have hview := List.mem_map_of_mem (f := fun user => (user.id, user.completed, user.activity)) mem
    rw [husers, List.mem_map] at hview
    obtain ⟨old, hold, heq⟩ := hview
    obtain ⟨hid, hn, hactivity⟩ : old.id = user.id ∧ old.completed = user.completed
        ∧ old.activity = user.activity := by simpa using heq
    rw [hlog, life_append hnone, ← hid, ← hn, ← hactivity]
    exact h.lives old hold
  · intro id hid
    rw [hids] at hid
    rw [hlog, life_append hnone, h.strangers id hid]
  · rw [hlog, deliveries_append hnone, hcompleted, h.completed]
  · intro time user mem
    rw [hlog] at mem ⊢
    refine .mono (List.subset_append_right ..) (h.patient time user ?_)
    refine (List.mem_append.mp mem).resolve_left fun hevent => ?_
    simpa [Event.user?] using hnone _ hevent

/-- A change of one user, noted by at most one event of its life. -/
theorem ofWithUser {f : User → User} {event : Event} (h : Accounted setting crowd)
    (numbered : crowd.Numbered) (mem : user ∈ crowd.users) (hid : ∀ user, (f user).id = user.id)
    (husers : after.users = (crowd.withUser user.id f).users) (hevent : event.user? = some user.id)
    (hlog : after.log = (crowd.now, event) :: crowd.log)
    (hsink : after.sink = Outcome.recordAll setting.plan.scenario event.delivery?.toList crowd.sink)
    (hlife : LeadsTo setting user.id (f user).completed (f user).activity
      ((crowd.now, event) :: life user.id crowd.log))
    (hcompleted : (f user).completed = user.completed + event.delivery?.toList.length)
    (hexpired : ∀ id, event = .aborted id → Expired setting crowd.log crowd.now) :
    Accounted setting after := by
  have hids : after.users.map (·.id) = crowd.users.map (·.id) := by
    rw [husers]
    exact map_withUser crowd user.id hid
  refine ⟨?_, ?_, ?_, ?_, ?_⟩
  -- A fold over the deliveries so far goes on with what this event delivers.
  · rw [hsink, h.sink, hlog, deliveries_cons, Outcome.recordAll, Outcome.recordAll, Outcome.recordAll,
      List.foldl_append]
  · intro other hother
    rw [husers, numbered.mem_withUser mem] at hother
    rcases hother with rfl | ⟨hother, hne⟩
    · rw [hid, hlog, life_cons_self hevent]
      exact hlife
    · rw [hlog, life_cons_of_ne hevent hne]
      exact h.lives other hother
  · intro id hnot
    rw [hids] at hnot
    have hne : id ≠ user.id := fun heq => hnot (heq ▸ List.mem_map_of_mem mem)
    rw [hlog, life_cons_of_ne hevent hne, h.strangers id hnot]
  · have hsum := numbered.sum_withUser mem f (·.completed)
    rw [hlog, deliveries_cons, List.length_append, h.completed, husers]
    omega
  · intro time id hmem
    rw [hlog] at hmem ⊢
    refine .mono (List.subset_cons_self ..) ?_
    rcases List.mem_cons.mp hmem with heq | hmem
    · obtain ⟨rfl, rfl⟩ := Prod.mk.inj heq
      exact hexpired id rfl
    · exact h.patient time id hmem

theorem spawn (h : Accounted setting crowd) (numbered : crowd.Numbered) :
    Accounted setting (crowd.spawn setting) := by
  have hlog : (crowd.spawn setting).log
      = [(crowd.now, .spawned (crowd.users.length + 1))] ++ crowd.log := rfl
  have hnone : ∀ entry ∈ [(crowd.now, Event.spawned (crowd.users.length + 1))],
      entry.2.user? = none := by simp [Event.user?]
  refine ⟨?_, ?_, ?_, ?_, ?_⟩
  · rw [hlog, deliveries_append hnone]
    exact h.sink
  · intro user mem
    rw [hlog, life_append hnone]
    simp only [Crowd.spawn, note, List.mem_append, List.mem_singleton] at mem
    rcases mem with mem | rfl
    · exact h.lives user mem
    -- The identity is new, so its life has not begun.
    · have hnew : crowd.users.length + 1 ∉ crowd.users.map (·.id) := fun hmem => by
        obtain ⟨old, hold, hid⟩ := List.mem_map.mp hmem
        have := numbered.id_le hold
        omega
      rw [h.strangers _ hnew]
      exact .nil
  · intro id hid
    rw [hlog, life_append hnone]
    refine h.strangers id fun hmem => hid ?_
    simp only [Crowd.spawn, note, List.map_append, List.mem_append]
    exact .inl hmem
  · rw [hlog, deliveries_append hnone, h.completed]
    simp [Crowd.spawn, note]
  · intro time user mem
    refine .mono (List.subset_cons_self ..) (h.patient time user ?_)
    simpa [Crowd.spawn, note] using mem

/-- A turn keeps the log's account: a user halts between iterations, or begins or ends one. -/
theorem turn (h : Accounted setting crowd) (numbered : crowd.Numbered) (mem : user ∈ crowd.users)
    (awake : user.activity.isOver = false) (turn : Turn setting crowd user after) :
    Accounted setting after := by
  have hunforced : user.activity ≠ .aborted := fun heq => by simp [heq, Activity.isOver] at awake
  have hlife := h.lives user mem
  cases turn with
  | @halt activity quiet hactivity =>
      -- Who halts between two iterations has led a whole life so far, and notes nothing.
      have hwhole := (leadsTo_iff_whole quiet hunforced).mp hlife
      refine ⟨h.sink, ?_, ?_, ?_, h.patient⟩
      · intro other hother
        rcases (numbered.mem_withUser mem).mp hother with rfl | ⟨hother, -⟩
        · refine (leadsTo_iff_whole ?_ ?_).mpr hwhole
          · rcases hactivity with rfl | ⟨-, -, rfl | ⟨_, rfl⟩⟩ <;> rfl
          · rcases hactivity with rfl | ⟨-, -, rfl | ⟨_, rfl⟩⟩ <;> exact Activity.noConfusion
        · exact h.lives other hother
      · intro id hnot
        have hids : (crowd.withUser user.id fun user => { user with activity }).users.map (·.id)
          = crowd.users.map (·.id) := map_withUser crowd user.id fun _ => rfl
        exact h.strangers id (hids ▸ hnot)
      · have hcompleted : (crowd.withUser user.id fun user => { user with activity }).users.map
          (·.completed) = crowd.users.map (·.completed) := map_withUser crowd user.id fun _ => rfl
        exact hcompleted ▸ h.completed
  | send quiet untold running unpaused =>
      have hwhole := (leadsTo_iff_whole quiet hunforced).mp hlife
      refine h.ofWithUser numbered mem ?_ rfl rfl rfl rfl ?_ rfl fun id heq => by cases heq
      · exact fun _ => rfl
      · exact ⟨crowd.now, _, _, rfl, hwhole, ⟨_, rfl⟩, rfl, rfl⟩
  | @record parameters exchange due sending arrived =>
      rw [sending] at hlife
      obtain ⟨sent, reply, earlier, hearlier, hwhole, hanswers, rfl, rfl⟩ := hlife
      obtain ⟨hquiet, hunforced'⟩ := activity_afterIteration setting.plan crowd.now user
      refine h.ofWithUser numbered mem (id_afterIteration setting.plan crowd.now) rfl rfl rfl rfl ?_
        (completed_afterIteration setting.plan crowd.now user) fun id heq => by cases heq
      refine (leadsTo_iff_whole hquiet hunforced').mpr ?_
      rw [completed_afterIteration, hearlier]
      exact .iteration hwhole hanswers arrived

/-- Aborting a user cuts its life off. -/
theorem abortUser (h : Accounted setting crowd) (numbered : crowd.Numbered) (mem : user ∈ crowd.users)
    (awake : user.activity.isOver = false) (expired : Expired setting crowd.log crowd.now) :
    Accounted setting (crowd.abortUser user.id) := by
  have hunforced : user.activity ≠ .aborted := fun heq => by simp [heq, Activity.isOver] at awake
  refine h.ofWithUser numbered mem ?_ rfl rfl rfl rfl ?_ rfl fun _ _ => expired
  · exact fun _ => rfl
  · have hlife := h.lives user mem
    cases hquiet : user.activity.isSending with
    | false => exact .between ((leadsTo_iff_whole hquiet hunforced).mp hlife)
    | true =>
        cases hactivity : user.activity with
        | sending parameters exchange due =>
            rw [hactivity] at hlife
            obtain ⟨sent, reply, earlier, hearlier, hwhole, -, -, -⟩ := hlife
            rw [hearlier]
            exact .lost hwhole
        | _ => simp [hactivity, Activity.isSending] at hquiet

/-- Every move keeps the log's account. -/
theorem move (h : Accounted setting crowd) (tracked : crowd.Tracked)
    (move : Move setting crowd after) : Accounted setting after := by
  cases move with
  | spawn => exact h.spawn tracked.numbered
  | dismiss =>
      unfold Crowd.dismiss
      cases crowd.active with
      | nil => exact h
      | cons id active =>
          refine h.quiet [(crowd.now, .dismissed id)] ?_ rfl rfl (by simp [Event.user?])
          exact map_withUser crowd id fun _ => rfl
  | reap =>
      unfold Crowd.reap
      simp only [foldl_note_reaped]
      refine h.quiet _ rfl rfl rfl fun entry mem => ?_
      obtain ⟨id, -, rfl⟩ := List.mem_map.mp (List.mem_reverse.mp mem)
      rfl
  | turn mem can => exact h.turn tracked.numbered mem (awake_of_canStep can) (turn_stepUser can)
  | abort mem awake expired => exact h.abortUser tracked.numbered mem awake expired
  | probe request => exact h.quiet [_] rfl rfl rfl (by simp [Event.user?])
  | tick clock target => exact h.quiet [_] rfl rfl rfl (by simp [Event.user?])
  | check taken verdict => exact h.quiet [_] rfl rfl rfl (by simp [Event.user?])
  | close => exact h.quiet [_] rfl rfl rfl (by simp [Event.user?])
  | outside later kept => exact h.quiet [] rfl rfl rfl (by simp)

end Accounted

/-- The log of a run accounts for everything. -/
theorem accounted_of_moves (moves : Moves setting (initial setting) crowd) : Accounted setting crowd := by
  induction moves with
  | refl => exact accounted_initial setting
  | tail earlier move ih => exact ih.move (tracked_of_moves earlier) move

end Crowd

end LoadTest.Simulation
