import LoadTest.Proofs.Simulation.Move

/-!
# LoadTest.Proofs.Simulation.Spared

Changes of a crowd by what they leave alone. **Some leave what is asked for and looked at**
(`Crowd.Aside`), **some leave what users do** (`Crowd.Idle`); operations on the pool and requests of no
user leave both (`Crowd.Spared`). Relations like these compose, so what a long change leaves alone is read
off its parts.
-/

namespace LoadTest.Simulation

/-- The number of users at a look at the schedule. -/
def Event.look? : Event → Option Nat
  | .ticked _ _ live => some live
  | _ => none

/-- Whether an event is neither a look, nor a check, nor part of the life of a user. -/
def Event.isPlain : Event → Bool
  | .spawned _ | .dismissed _ | .reaped _ | .probed _ | .closed _ => true
  | _ => false

theorem Event.of_isPlain {event : Event} (plain : event.isPlain = true) :
    event.look? = none ∧ event.isCheck = false ∧ event.user? = none := by
  cases event <;> simp_all [isPlain, look?, isCheck, user?]

namespace Crowd

variable {setting : Setting} {crowd after : Crowd} {user : User}

/-- The numbers of users at the looks of a log, the latest first. -/
def looks (log : List (Nat × Event)) : List Nat := log.filterMap fun entry => entry.2.look?

/-- Only events of a kind have been noted since. -/
def NotesOnly (kind : Event → Prop) (before after : Crowd) : Prop :=
  ∃ events, after.log = events ++ before.log ∧ ∀ entry ∈ events, kind entry.2

section

variable {kind : Event → Prop}

theorem NotesOnly.of_log (h : after.log = crowd.log) : NotesOnly kind crowd after :=
  ⟨[], h, List.forall_mem_nil _⟩

theorem NotesOnly.single {time : Nat} {event : Event} (hlog : after.log = (time, event) :: crowd.log)
    (hkind : kind event) : NotesOnly kind crowd after :=
  ⟨[(time, event)], hlog, List.forall_mem_singleton.mpr hkind⟩

theorem NotesOnly.trans {a b c : Crowd} (first : NotesOnly kind a b) (second : NotesOnly kind b c) :
    NotesOnly kind a c := by
  obtain ⟨events, hevents, hkind⟩ := first
  obtain ⟨newer, hnewer, hkind'⟩ := second
  refine ⟨newer ++ events, ?_, List.forall_mem_append.mpr ⟨hkind', hkind⟩⟩
  rw [hnewer, hevents, List.append_assoc]

theorem NotesOnly.mono {kind' : Event → Prop} (h : NotesOnly kind crowd after)
    (himp : ∀ event, kind event → kind' event) : NotesOnly kind' crowd after := by
  obtain ⟨events, hlog, hkind⟩ := h
  exact ⟨events, hlog, fun entry mem => himp entry.2 (hkind entry mem)⟩

/-- One note for each of some users. -/
theorem NotesOnly.each {ids : List Nat} {event : Nat → Event}
    (hlog : after.log = (ids.map fun id => (crowd.now, event id)).reverse ++ crowd.log)
    (hkind : ∀ id, kind (event id)) : NotesOnly kind crowd after := by
  refine ⟨_, hlog, fun entry mem => ?_⟩
  obtain ⟨id, -, rfl⟩ := List.mem_map.mp (List.mem_reverse.mp mem)
  exact hkind id

end

/-- **A change aside from the schedule:** nothing is asked for, looked at or checked. -/
structure Aside (before after : Crowd) : Prop where
  control : after.control = before.control
  cancelled : after.cancelled = before.cancelled
  unlooked : NotesOnly (fun event => event.look? = none ∧ event.isCheck = false) before after

namespace Aside

theorem trans {a b c : Crowd} (first : Aside a b) (second : Aside b c) : Aside a c where
  control := second.control.trans first.control
  cancelled := second.cancelled.trans first.cancelled
  unlooked := first.unlooked.trans second.unlooked

/-- Every look was there before. -/
theorem mem_of_look (h : Aside crowd after) {time : Nat} {event : Event} (look : event.look?.isSome = true)
    (mem : (time, event) ∈ after.log) : (time, event) ∈ crowd.log := by
  obtain ⟨events, hlog, hquiet⟩ := h.unlooked
  rw [hlog, List.mem_append] at mem
  refine mem.resolve_left fun hevent => ?_
  rw [(hquiet _ hevent).1] at look
  cases look

theorem looks_eq (h : Aside crowd after) : looks after.log = looks crowd.log := by
  obtain ⟨events, hlog, hquiet⟩ := h.unlooked
  have hnone : looks events = [] := List.filterMap_eq_nil_iff.mpr fun entry mem => (hquiet entry mem).1
  rw [hlog, looks, List.filterMap_append, ← looks, hnone, List.nil_append]
  rfl

theorem failed_iff (h : Aside crowd after) : Failed after.log ↔ Failed crowd.log := by
  obtain ⟨events, hlog, hquiet⟩ := h.unlooked
  rw [hlog]
  refine ⟨Failed.of_append fun entry mem => (hquiet entry mem).2, ?_⟩
  rintro ⟨time, clock, mem⟩
  exact ⟨time, clock, List.mem_append_right _ mem⟩

end Aside

/-! ### Changes that spare the users -/

/-- A user is there that has done as much as another of its identity, and does the same. -/
def Keeps (crowd : Crowd) (user : User) : Prop := ∃ user' ∈ crowd.users,
  user'.id = user.id ∧ user'.completed = user.completed ∧ user'.activity = user.activity

/-- **A change in which no user goes on or is ended.** -/
structure Idle (before after : Crowd) : Prop where
  unlived : NotesOnly (fun event => event.user? = none) before after
  users : ∀ user ∈ before.users, after.Keeps user

namespace Idle

theorem ofUsers (unlived : NotesOnly (fun event => event.user? = none) crowd after)
    (husers : after.users = crowd.users) : Idle crowd after where
  unlived := unlived
  users := fun user mem => ⟨user, husers ▸ mem, rfl, rfl, rfl⟩

theorem trans {a b c : Crowd} (first : Idle a b) (second : Idle b c) : Idle a c where
  unlived := first.unlived.trans second.unlived
  users := by
    intro user mem
    obtain ⟨user', mem', hid', hcompleted', hactivity'⟩ := first.users user mem
    obtain ⟨user'', mem'', hid, hcompleted, hactivity⟩ := second.users user' mem'
    exact ⟨user'', mem'', hid.trans hid', hcompleted.trans hcompleted', hactivity.trans hactivity'⟩

end Idle

/-- A change of the pool, or what is noted of requests of no user. -/
structure Spared (before after : Crowd) : Prop extends Aside before after, Idle before after

namespace Spared

theorem trans {a b c : Crowd} (first : Spared a b) (second : Spared b c) : Spared a c :=
  ⟨first.toAside.trans second.toAside, first.toIdle.trans second.toIdle⟩

theorem of_plain (hcontrol : after.control = crowd.control) (hcancelled : after.cancelled = crowd.cancelled)
    (plain : NotesOnly (fun event => event.isPlain = true) crowd after)
    (husers : ∀ user ∈ crowd.users, after.Keeps user) : Spared crowd after := by
  refine ⟨⟨hcontrol, hcancelled, plain.mono fun event h => ?_⟩, plain.mono fun event h => ?_, husers⟩
  · obtain ⟨hlook, hcheck, -⟩ := Event.of_isPlain h
    exact ⟨hlook, hcheck⟩
  · exact (Event.of_isPlain h).2.2

theorem of_users (hcontrol : after.control = crowd.control) (hcancelled : after.cancelled = crowd.cancelled)
    (plain : NotesOnly (fun event => event.isPlain = true) crowd after)
    (husers : after.users = crowd.users) : Spared crowd after :=
  of_plain hcontrol hcancelled plain fun user mem => ⟨user, husers ▸ mem, rfl, rfl, rfl⟩

theorem refl (crowd : Crowd) : Spared crowd crowd := of_users rfl rfl (.of_log rfl) rfl

theorem note {event : Event} (plain : event.isPlain = true) (crowd : Crowd) :
    Spared crowd (crowd.note event) :=
  of_users rfl rfl (.single rfl plain) rfl

theorem spawn (crowd : Crowd) : Spared crowd (crowd.spawn setting) := by
  refine of_plain rfl rfl (.single rfl rfl) fun user mem => ?_
  exact ⟨user, List.mem_append_left _ mem, rfl, rfl, rfl⟩

theorem dismiss (crowd : Crowd) : Spared crowd crowd.dismiss := by
  unfold Crowd.dismiss
  cases crowd.active with
  | nil => exact refl crowd
  | cons id active =>
      refine of_plain rfl rfl (.single rfl rfl) fun user mem => ?_
      obtain ⟨i, hi, rfl⟩ := List.getElem_of_mem mem
      -- The user in this place may be the one that is told to stop.
      have hget := getElem?_withUser crowd id (fun user => { user with told := true }) i
      rw [List.getElem?_eq_getElem hi, Option.map_some] at hget
      refine ⟨_, List.mem_of_getElem? hget, ?_⟩
      split <;> exact ⟨rfl, rfl, rfl⟩

theorem scaleTo (target : Nat) (crowd : Crowd) : Spared crowd (crowd.scaleTo setting target) := by
  have hspawn : ∀ after, Spared crowd after → Spared crowd (after.spawn setting) :=
    fun after h => h.trans (spawn after)
  have hdismiss : ∀ after, Spared crowd after → Spared crowd after.dismiss :=
    fun after h => h.trans (dismiss after)
  exact scaleTo_induction hspawn hdismiss (refl crowd) target

theorem reap (crowd : Crowd) : Spared crowd crowd.reap := by
  unfold Crowd.reap
  simp only [foldl_note_reaped]
  exact of_users rfl rfl (.each rfl fun _ => rfl) rfl

end Spared

/-- Requests of no user: nothing is changed but what is counted and noted of them. -/
inductive Probed (crowd : Crowd) : Crowd → Prop where
  | intro (sent : Table Nat) {events : List (Nat × Event)}
      (probes : ∀ entry ∈ events, ∃ request, entry.2 = .probed request) :
      Probed crowd { crowd with sent, log := events ++ crowd.log }

theorem Probed.refl (crowd : Crowd) : Probed crowd crowd := .intro crowd.sent (List.forall_mem_nil _)

theorem Probed.trans {a b c : Crowd} (first : Probed a b) (second : Probed b c) : Probed a c := by
  obtain ⟨_, hfirst⟩ := first
  obtain @⟨sent, newer, hsecond⟩ := second
  have hboth := @Probed.intro a sent _ (List.forall_mem_append.mpr ⟨hsecond, hfirst⟩)
  rwa [List.append_assoc] at hboth

theorem Probed.spared (h : Probed crowd after) : Spared crowd after := by
  obtain ⟨sent, hprobes⟩ := h
  refine Spared.of_users rfl rfl ⟨_, rfl, fun entry mem => ?_⟩ rfl
  obtain ⟨request, heq⟩ := hprobes entry mem
  rw [heq]
  rfl

theorem probed_send (setting : Setting) (request : Request) (crowd : Crowd) :
    Probed crowd ((crowd.send setting request).2.note (.probed request)) := by
  refine @Probed.intro crowd _ [(crowd.now, .probed request)] fun entry mem => ?_
  rw [List.mem_singleton.mp mem]
  exact ⟨request, rfl⟩

/-! ### Turns and aborts -/

theorem Turn.aside (turn : Turn setting crowd user after) : Aside crowd after := by
  cases turn with
  | halt quiet h => exact ⟨rfl, rfl, .of_log rfl⟩
  | send quiet untold running unpaused => exact ⟨rfl, rfl, .single rfl ⟨rfl, rfl⟩⟩
  | record sending arrived => exact ⟨rfl, rfl, .single rfl ⟨rfl, rfl⟩⟩

theorem Turn.active_eq (turn : Turn setting crowd user after) : after.active = crowd.active := by
  cases turn <;> rfl

theorem Turn.length_eq (turn : Turn setting crowd user after) :
    after.users.length = crowd.users.length := by
  cases turn <;> exact List.length_modify ..

/-- Aborting changes what users do and notes it, and nothing else. -/
theorem foldl_abortUser_eq (ids : List Nat) (crowd : Crowd) : ∃ users,
    ids.foldl abortUser crowd
      = { crowd with users, log := (ids.map fun id => (crowd.now, .aborted id)).reverse ++ crowd.log }
    ∧ users.map (·.id) = crowd.users.map (·.id) := by
  induction ids generalizing crowd with
  | nil => exact ⟨crowd.users, rfl, rfl⟩
  | cons id rest ih =>
      obtain ⟨users, heq, hids⟩ := ih (crowd.abortUser id)
      refine ⟨users, ?_, hids.trans (map_withUser crowd id fun _ => rfl)⟩
      rw [List.foldl_cons, heq]
      simp [abortUser, note, withUser]

/-- Aborting notes nothing else. -/
theorem notes_abort {kind : Event → Prop} (hkind : ∀ id, kind (.aborted id)) (crowd : Crowd) :
    NotesOnly kind crowd crowd.abort := by
  obtain ⟨users, heq, -⟩ := foldl_abortUser_eq (crowd.draining.filter fun id => !crowd.isOver id) crowd
  rw [abort, heq]
  exact .each rfl hkind

theorem aside_abort (crowd : Crowd) : Aside crowd crowd.abort := by
  obtain ⟨users, heq, -⟩ := foldl_abortUser_eq (crowd.draining.filter fun id => !crowd.isOver id) crowd
  rw [abort, heq]
  exact ⟨rfl, rfl, .each rfl fun _ => ⟨rfl, rfl⟩⟩

/-- Aborting changes neither how many users there are nor which of them count toward the target. -/
theorem active_abort (crowd : Crowd) :
    crowd.abort.users.length = crowd.users.length ∧ crowd.abort.active = crowd.active := by
  obtain ⟨users, heq, hids⟩ := foldl_abortUser_eq (crowd.draining.filter fun id => !crowd.isOver id) crowd
  rw [abort, heq]
  exact ⟨by simpa using congrArg List.length hids, rfl⟩

/-! ### Numbers of users -/

theorem length_scaleTo (setting : Setting) (target : Nat) (crowd : Crowd) :
    (crowd.scaleTo setting target).users.length = crowd.users.length + (target - crowd.live) := by
  rw [scaleTo, length_dismissMany, length_spawnMany]

theorem live_scaleTo (setting : Setting) (target : Nat) (crowd : Crowd) :
    (crowd.scaleTo setting target).live = target := by
  have hlive : (spawnMany setting (target - crowd.live) crowd).live = target - crowd.live + crowd.live := by
    rw [live, active_spawnMany, List.length_append, List.length_reverse, List.length_range', ← live]
  rw [scaleTo, live, active_dismissMany, List.length_drop, ← live, hlive]
  omega

/-- A place is given up only where fewer users are asked for than count toward the target. -/
theorem lt_live_of_scaleTo {target id : Nat} (mem : id ∈ crowd.active)
    (gone : id ∉ (crowd.scaleTo setting target).active) : target < crowd.live := by
  by_contra hle
  refine gone ?_
  rw [scaleTo, Nat.sub_eq_zero_of_le (Nat.le_of_not_lt hle), dismissMany, active_spawnMany]
  exact List.mem_append_right _ mem

theorem live_reap (crowd : Crowd) :
    crowd.reap.users.length = crowd.users.length ∧ crowd.reap.live = crowd.live := by
  have hswept := swept_reap crowd
  exact ⟨congrArg List.length hswept.users, congrArg List.length hswept.active⟩

end Crowd

end LoadTest.Simulation
