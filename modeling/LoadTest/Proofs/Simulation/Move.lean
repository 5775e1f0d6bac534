import LoadTest.Proofs.Simulation.Scaling
import LoadTest.Proofs.Simulation.Turn
import LoadTest.Simulation.Step
import Mathlib.Logic.Relation

/-!
# LoadTest.Proofs.Simulation.Move

The elementary changes of a crowd. **Whatever a run does to its users is a sequence of moves**
(`Crowd.Move`), so what every move keeps holds of the crowd of every run. A user is aborted by a move only
when the load has ended and the time given to the users since then is over.
-/

namespace LoadTest.Simulation.Crowd

open Relation

variable {setting : Setting} {crowd after : Crowd} {user : User}

/-- The load has ended, and the time that users were given to finish is over. -/
def Expired (setting : Setting) (log : List (Nat × Event)) (now : Nat) : Prop :=
  ∃ time cancelled, (time, .closed cancelled) ∈ log ∧ moment (time + setting.plan.gracefulStop.nanos) ≤ now

/-- One change of the users and of what they share. -/
inductive Move (setting : Setting) (crowd : Crowd) : Crowd → Prop where
  | spawn : Move setting crowd (crowd.spawn setting)
  | dismiss : Move setting crowd crowd.dismiss
  | reap : Move setting crowd crowd.reap
  | turn {user : User} (mem : user ∈ crowd.users) (can : crowd.canStep user = true) :
      Move setting crowd (crowd.stepUser setting user)
  | abort {user : User} (mem : user ∈ crowd.users) (awake : user.activity.isOver = false)
      (expired : Expired setting crowd.log crowd.now) : Move setting crowd (crowd.abortUser user.id)
  | probe (request : Request) :
      Move setting crowd ((crowd.send setting request).2.note (.probed request))
  | tick (clock : Duration) (target : Nat) :
      Move setting crowd (crowd.note (.ticked clock target crowd.live))
  /-- A check that fails cancels the run. -/
  | check {clock : Duration} {snapshot : Metric.Snapshot} {passed : Bool}
      (taken : crowd.sink.snapshot? = some snapshot)
      (verdict : passed = (Threshold.evaluate setting.plan.abortThresholds snapshot clock).passed) :
      Move setting crowd
        { crowd.note (.checked clock passed) with cancelled := crowd.cancelled || !passed }
  | close : Move setting crowd (crowd.note (.closed crowd.cancelled))
  /-- Time passes, commands are followed, and the run may be cancelled. -/
  | outside {now : Nat} {control : Control} {cancelled : Bool} (later : crowd.now ≤ now)
      (kept : crowd.cancelled = true → cancelled = true) :
      Move setting crowd { crowd with now, control, cancelled }

/-- Any number of moves. -/
abbrev Moves (setting : Setting) : Crowd → Crowd → Prop := ReflTransGen (Move setting)

/-- The crowd at the start of a run. -/
def initial (setting : Setting) : Crowd := { sink := setting.plan.scenario.sink setting.plan.shards }

theorem sink_initial (setting : Setting) :
    (initial setting).sink = setting.plan.scenario.sink setting.plan.shards := by
  -- Left to find this out, `rfl` would build the sink first.
  rw [initial]

/-! ### What every move keeps -/

theorem Tracked.move (h : crowd.Tracked) (move : Move setting crowd after) : after.Tracked := by
  cases move with
  | spawn => exact h.spawn
  | dismiss => exact h.dismiss
  | reap => exact h.reap
  | turn mem can => exact h.stepUser mem can
  | abort mem awake expired => exact h.inPlace (inPlace_abortUser h.numbered mem)
  | probe request =>
      have hsent : InPlace crowd (crowd.send setting request).2 := .ofUsers rfl rfl rfl rfl
      exact h.inPlace (hsent.trans (.ofNote _ (by simp) (by simp)))
  | tick clock target => exact h.inPlace (.ofNote _ (by simp) (by simp))
  | @check clock snapshot passed taken verdict =>
      have hnoted : InPlace crowd (crowd.note (.checked clock passed)) := .ofNote _ (by simp) (by simp)
      exact h.inPlace (hnoted.trans (.ofUsers rfl rfl rfl rfl))
  | close => exact h.inPlace (.ofNote _ (by simp) (by simp))
  | outside later kept => exact h.inPlace (.ofUsers rfl rfl rfl rfl)

/-- Every user of a run is in its place. -/
theorem tracked_of_moves (moves : Moves setting (initial setting) crowd) : crowd.Tracked := by
  induction moves with
  | refl => exact tracked_empty _
  | tail _ move ih => exact ih.move move

/-! ### What a move notes -/

/-- What a move adds to the log. A check tells the truth about the sink and cancels the run if it fails;
in a cancelled run no user sends a request. -/
structure Noted (setting : Setting) (crowd after : Crowd) (events : List (Nat × Event)) : Prop where
  log : after.log = events ++ crowd.log
  cancelled : crowd.cancelled = true →
    after.cancelled = true ∧ ∀ entry ∈ events, entry.2.isSent = false
  checks : ∀ time clock passed, (time, .checked clock passed) ∈ events →
    events = [(time, .checked clock passed)]
      ∧ (∃ snapshot, crowd.sink.snapshot? = some snapshot
        ∧ passed = (Threshold.evaluate setting.plan.abortThresholds snapshot clock).passed)
      ∧ (passed = false → after.cancelled = true)

/-- Events that are no checks, and no requests of users if the run is cancelled. -/
theorem Noted.plain {events : List (Nat × Event)} (hlog : after.log = events ++ crowd.log)
    (hcancelled : after.cancelled = crowd.cancelled)
    (hevents : ∀ entry ∈ events, entry.2.isCheck = false
      ∧ (crowd.cancelled = true → entry.2.isSent = false)) : Noted setting crowd after events where
  log := hlog
  cancelled := fun h => ⟨hcancelled.trans h, fun entry mem => (hevents entry mem).2 h⟩
  checks := fun time clock passed mem => by simpa [Event.isCheck] using (hevents _ mem).1

theorem Noted.single {event : Event} (hlog : after.log = (crowd.now, event) :: crowd.log)
    (hcancelled : after.cancelled = crowd.cancelled) (hcheck : event.isCheck = false)
    (hsent : event.isSent = false) : Noted setting crowd after [(crowd.now, event)] :=
  .plain hlog hcancelled fun entry mem => by
    obtain rfl := List.mem_singleton.mp mem
    exact ⟨hcheck, fun _ => hsent⟩

theorem Turn.notes (turn : Turn setting crowd user after) :
    ∃ events, Noted setting crowd after events ∧ ∀ entry ∈ events, entry.2.isCheck = false := by
  cases turn with
  | halt quiet h => exact ⟨[], .plain rfl rfl nofun, nofun⟩
  | send quiet untold running unpaused =>
      -- In a cancelled run this case does not arise.
      refine ⟨[_], .plain rfl rfl fun entry mem => ?_, ?_⟩
      · obtain rfl := List.mem_singleton.mp mem
        exact ⟨rfl, fun hcancelled => by simp [running] at hcancelled⟩
      · exact List.forall_mem_singleton.mpr rfl
  | record sending arrived => exact ⟨_, .single rfl rfl rfl rfl, List.forall_mem_singleton.mpr rfl⟩

/-- **Every move notes what it does,** and nothing is ever taken out of the log. -/
theorem Move.notes (move : Move setting crowd after) : ∃ events, Noted setting crowd after events := by
  cases move with
  | spawn => exact ⟨_, .single rfl rfl rfl rfl⟩
  | dismiss =>
      unfold Crowd.dismiss
      cases crowd.active with
      | nil => exact ⟨[], .plain rfl rfl nofun⟩
      | cons id active => exact ⟨_, .single rfl rfl rfl rfl⟩
  | reap =>
      unfold Crowd.reap
      simp only [foldl_note_reaped]
      refine ⟨_, .plain rfl rfl fun entry mem => ?_⟩
      obtain ⟨id, -, rfl⟩ := List.mem_map.mp (List.mem_reverse.mp mem)
      exact ⟨rfl, fun _ => rfl⟩
  | turn mem can =>
      obtain ⟨events, hnoted, -⟩ := (turn_stepUser can).notes
      exact ⟨events, hnoted⟩
  | abort mem awake expired => exact ⟨_, .single rfl rfl rfl rfl⟩
  | probe request => exact ⟨_, .single rfl rfl rfl rfl⟩
  | tick clock target => exact ⟨_, .single rfl rfl rfl rfl⟩
  | @check clock snapshot passed taken verdict =>
      refine ⟨[(crowd.now, .checked clock passed)], rfl, ?_, ?_⟩
      · intro hcancelled
        exact ⟨by simp [hcancelled], by simp [Event.isSent]⟩
      · intro time clock' passed' mem
        obtain ⟨rfl, rfl, rfl⟩ : time = crowd.now ∧ clock' = clock ∧ passed' = passed := by
          simpa using mem
        exact ⟨rfl, ⟨snapshot, taken, verdict⟩, fun hfalse => by simp [hfalse]⟩
  | close => exact ⟨_, .single rfl rfl rfl rfl⟩
  | outside later kept => exact ⟨[], rfl, fun hcancelled => ⟨kept hcancelled, nofun⟩, nofun⟩

theorem log_suffix_of_moves (moves : Moves setting crowd after) : crowd.log <:+ after.log := by
  induction moves with
  | refl => exact List.suffix_rfl
  | tail _ move ih =>
      obtain ⟨events, hnoted⟩ := move.notes
      exact ih.trans (hnoted.log ▸ List.suffix_append ..)

/-- A check of the thresholds has failed. -/
def Failed (log : List (Nat × Event)) : Prop := ∃ time clock, (time, .checked clock false) ∈ log

/-- Only a check can fail. -/
theorem Failed.of_append {events log : List (Nat × Event)}
    (plain : ∀ entry ∈ events, entry.2.isCheck = false) (h : Failed (events ++ log)) : Failed log := by
  obtain ⟨time, clock, mem⟩ := h
  refine ⟨time, clock, (List.mem_append.mp mem).resolve_left fun hmem => ?_⟩
  simpa [Event.isCheck] using plain _ hmem

theorem Failed.of_note {event : Event} (plain : event.isCheck = false)
    (h : Failed (crowd.note event).log) : Failed crowd.log :=
  of_append (List.forall_mem_singleton.mpr plain) h

/-- Once a check has failed the run is cancelled. -/
theorem cancelled_of_failed (moves : Moves setting (initial setting) crowd) (h : Failed crowd.log) :
    crowd.cancelled = true := by
  induction moves with
  | refl =>
      obtain ⟨time, clock, mem⟩ := h
      exact absurd mem List.not_mem_nil
  | tail _ move ih =>
      obtain ⟨events, hnoted⟩ := move.notes
      obtain ⟨time, clock, mem⟩ := h
      rw [hnoted.log, List.mem_append] at mem
      rcases mem with mem | mem
      · exact (hnoted.checks time clock false mem).2.2 rfl
      · exact (hnoted.cancelled (ih ⟨time, clock, mem⟩)).1

/-! ### Operations as moves -/

theorem moves_scaleTo (target : Nat) (crowd : Crowd) : Moves setting crowd (crowd.scaleTo setting target) :=
  scaleTo_induction (fun _ h => h.tail .spawn) (fun _ h => h.tail .dismiss) .refl target

theorem moves_foldl_abortUser {ids : List Nat} (numbered : crowd.Numbered) (nodup : ids.Nodup)
    (hids : ∀ id ∈ ids, ∃ user ∈ crowd.users, user.id = id ∧ user.activity.isOver = false)
    (expired : ids ≠ [] → Expired setting crowd.log crowd.now) :
    Moves setting crowd (ids.foldl abortUser crowd) := by
  induction ids generalizing crowd with
  | nil => exact .refl
  | cons id rest ih =>
      obtain ⟨hnot, hrest⟩ := List.nodup_cons.mp nodup
      obtain ⟨user, mem, rfl, awake⟩ := hids id List.mem_cons_self
      have hexpired := expired (List.cons_ne_nil _ _)
      refine .head (.abort mem awake hexpired) (ih (numbered_abortUser numbered user.id) hrest ?_ ?_)
      -- Aborting one leaves the others awake, and the time that is over stays over.
      · intro id' mem'
        obtain ⟨other, hother, rfl, hawake⟩ := hids id' (List.mem_cons_of_mem _ mem')
        have hne : other.id ≠ user.id := fun heq => hnot (heq ▸ mem')
        exact ⟨other, (numbered.mem_withUser mem).mpr (.inr ⟨hother, hne⟩), rfl, hawake⟩
      · obtain ⟨time, cancelled, hclosed, hle⟩ := hexpired
        exact fun _ => ⟨time, cancelled, List.mem_cons_of_mem _ hclosed, hle⟩

/-- When the time is over, or nobody is left to abort, aborting is a sequence of moves. -/
theorem Tracked.moves_abort (h : crowd.Tracked)
    (expired : crowd.allOver = true ∨ Expired setting crowd.log crowd.now) :
    Moves setting crowd crowd.abort := by
  have hawake : ∀ id ∈ crowd.draining.filter fun id => !crowd.isOver id,
      ∃ user ∈ crowd.users, user.id = id ∧ user.activity.isOver = false := by
    intro id mem
    obtain ⟨hdraining, hover⟩ := List.mem_filter.mp mem
    obtain ⟨user, hmem, rfl⟩ := h.user_of_draining hdraining
    rw [isOver_eq h.numbered hmem] at hover
    exact ⟨user, hmem, rfl, by simpa using hover⟩
  have hnodup : crowd.draining.Nodup :=
    (List.nodup_append.mp (List.nodup_append.mp h.nodup).2.1).1
  refine moves_foldl_abortUser h.numbered (hnodup.filter _) hawake fun hne => expired.resolve_left ?_
  intro hall
  obtain ⟨id, mem⟩ := List.exists_mem_of_ne_nil _ hne
  obtain ⟨user, hmem, -, hover⟩ := hawake id mem
  simp [List.all_eq_true.mp hall user hmem] at hover

theorem log_foldl_abortUser (ids : List Nat) (crowd : Crowd) : (ids.foldl abortUser crowd).log
    = (ids.map fun id => (crowd.now, Event.aborted id)).reverse ++ crowd.log := by
  induction ids generalizing crowd with
  | nil => rfl
  | cons id rest ih =>
      rw [List.foldl_cons, ih]
      simp [abortUser, note, withUser]

/-- Aborting fails no check. -/
theorem failed_of_abort (h : Failed crowd.abort.log) : Failed crowd.log := by
  rw [abort, log_foldl_abortUser] at h
  refine h.of_append fun entry mem => ?_
  obtain ⟨id, -, rfl⟩ := List.mem_map.mp (List.mem_reverse.mp mem)
  rfl

end LoadTest.Simulation.Crowd
