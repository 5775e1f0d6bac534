import LoadTest.Simulation.Crowd
import Mathlib.Algebra.GroupWithZero.Nat
import Mathlib.Data.List.Basic
import Mathlib.Data.List.Perm.Basic

/-!
# LoadTest.Proofs.Simulation.Pool

Where the users of a run are. **Every user there ever was is in exactly one place:** it counts toward
the target, it drains, or it has ended and was forgotten. The places are lists of identities, and
together they are a permutation of all identities given out so far (`Crowd.Tracked`). Each operation on
the pool keeps that, and so does everything that only changes what users do (`Crowd.InPlace`).
-/

namespace LoadTest.Simulation.Crowd

variable {setting : Setting} {crowd : Crowd} {user : User}

/-! ### Users by identity -/

/-- Users are numbered from one in the order in which they were spawned. -/
def Numbered (crowd : Crowd) : Prop :=
  crowd.users.map (·.id) = List.range' 1 crowd.users.length

theorem getElem?_withUser (crowd : Crowd) (id : Nat) (f : User → User) (j : Nat) :
    (crowd.withUser id f).users[j]?
      = crowd.users[j]?.map fun user => if id - 1 = j then f user else user :=
  List.getElem?_modify ..

/-- What a change of a user keeps stays where it is. -/
theorem map_withUser {α : Type} (crowd : Crowd) (id : Nat) {f : User → User} {g : User → α}
    (hkept : ∀ user, g (f user) = g user) : (crowd.withUser id f).users.map g = crowd.users.map g := by
  refine List.ext_getElem? fun j => ?_
  rw [List.getElem?_map, List.getElem?_map, getElem?_withUser]
  cases crowd.users[j]? with
  | none => rfl
  | some user => by_cases hj : id - 1 = j <;> simp [hj, hkept]

theorem sum_map_modify {users : List User} {i : Nat} (f : User → User) (g : User → Nat)
    (h : users[i]? = some user) :
    ((users.modify i f).map g).sum + g user = (users.map g).sum + g (f user) := by
  induction users generalizing i with
  | nil => simp at h
  | cons first rest ih =>
      cases i with
      | zero =>
          obtain rfl : first = user := by simpa using h
          simp only [List.modify_zero_cons, List.map_cons, List.sum_cons]
          omega
      | succ i =>
          have := ih (i := i) (by simpa using h)
          simp only [List.modify_succ_cons, List.map_cons, List.sum_cons]
          omega

namespace Numbered

theorem id_getElem (h : crowd.Numbered) {i : Nat} (hi : i < crowd.users.length) :
    crowd.users[i].id = i + 1 := by
  have hget : (crowd.users.map (·.id))[i]? = (List.range' 1 crowd.users.length)[i]? := by rw [h]
  rw [List.getElem?_map, List.getElem?_eq_getElem hi, List.getElem?_range' hi] at hget
  calc crowd.users[i].id
      _ = 1 + 1 * i := Option.some.inj hget
      _ = i + 1 := by omega

theorem id_mem (h : crowd.Numbered) (mem : user ∈ crowd.users) :
    user.id ∈ List.range' 1 crowd.users.length := by
  rw [← h]
  exact List.mem_map_of_mem mem

theorem id_pos (h : crowd.Numbered) (mem : user ∈ crowd.users) : 0 < user.id :=
  (List.mem_range'_1.mp (h.id_mem mem)).1

theorem id_le (h : crowd.Numbered) (mem : user ∈ crowd.users) : user.id ≤ crowd.users.length := by
  have := List.mem_range'_1.mp (h.id_mem mem)
  omega

/-- A user is found under its identity. -/
theorem user?_eq (h : crowd.Numbered) (mem : user ∈ crowd.users) : crowd.user? user.id = some user := by
  obtain ⟨i, hi, rfl⟩ := List.getElem_of_mem mem
  rw [user?, h.id_getElem hi, Nat.add_sub_cancel, List.getElem?_eq_getElem hi]

theorem mem_of_id (h : crowd.Numbered) {id : Nat} (hid : id ∈ List.range' 1 crowd.users.length) :
    ∃ user ∈ crowd.users, user.id = id := by
  rw [← h] at hid
  simpa using hid

/-- No two users have one identity. -/
theorem eq_of_id (h : crowd.Numbered) {other : User} (mem : user ∈ crowd.users)
    (hother : other ∈ crowd.users) (hid : user.id = other.id) : user = other := by
  have hsome := h.user?_eq mem
  rw [hid, h.user?_eq hother] at hsome
  exact (Option.some.inj hsome).symm

/-- Changing the user of an identity changes the users that have it. -/
theorem users_withUser (h : crowd.Numbered) {id : Nat} (hpos : 0 < id) (f : User → User) :
    (crowd.withUser id f).users = crowd.users.map fun user => if user.id = id then f user else user := by
  refine List.ext_getElem? fun j => ?_
  rw [getElem?_withUser, List.getElem?_map]
  cases hget : crowd.users[j]? with
  | none => rfl
  | some user =>
      obtain ⟨hlt, rfl⟩ := List.getElem?_eq_some_iff.mp hget
      have hid := h.id_getElem hlt
      have hiff : id - 1 = j ↔ crowd.users[j].id = id := by omega
      simp [hiff]

/-- Changing one user changes nobody else. -/
theorem mem_withUser (h : crowd.Numbered) (mem : user ∈ crowd.users) {f : User → User} {other : User} :
    other ∈ (crowd.withUser user.id f).users
      ↔ other = f user ∨ (other ∈ crowd.users ∧ other.id ≠ user.id) := by
  rw [h.users_withUser (h.id_pos mem), List.mem_map]
  constructor
  · rintro ⟨found, hfound, rfl⟩
    by_cases hid : found.id = user.id
    · rw [if_pos hid, h.eq_of_id hfound mem hid]
      exact .inl rfl
    · rw [if_neg hid]
      exact .inr ⟨hfound, hid⟩
  · rintro (rfl | ⟨hother, hne⟩)
    · exact ⟨user, mem, if_pos rfl⟩
    · exact ⟨other, hother, if_neg hne⟩

/-- A sum over all users changes by what it changes for the one that does. -/
theorem sum_withUser (h : crowd.Numbered) (mem : user ∈ crowd.users) (f : User → User) (g : User → Nat) :
    ((crowd.withUser user.id f).users.map g).sum + g user = (crowd.users.map g).sum + g (f user) :=
  sum_map_modify f g (h.user?_eq mem)

end Numbered

theorem isOver_eq (h : crowd.Numbered) (mem : user ∈ crowd.users) :
    crowd.isOver user.id = user.activity.isOver := by
  simp [isOver, h.user?_eq mem]

/-! ### The log -/

/-- The users spawned in a log, the latest first. -/
def spawned (log : List (Nat × Event)) : List Nat := log.filterMap fun entry =>
  match entry.2 with
  | .spawned user => some user
  | _ => none

/-- The users forgotten in a log, the latest first. -/
def reaped (log : List (Nat × Event)) : List Nat := log.filterMap fun entry =>
  match entry.2 with
  | .reaped user => some user
  | _ => none

/-- **Every user is in its place.** -/
structure Tracked (crowd : Crowd) : Prop where
  numbered : crowd.Numbered
  /-- Every identity was given out once, in ascending order. -/
  spawned : spawned crowd.log = (List.range' 1 crowd.users.length).reverse
  newest : crowd.active.Pairwise (· > ·)
  /-- Each user is in one place and in no other. -/
  places : (crowd.active ++ (crowd.draining ++ reaped crowd.log)).Perm
    (List.range' 1 crowd.users.length)
  /-- Those told to stop are those that count toward the target no more. -/
  told : ∀ user ∈ crowd.users, user.told = true ↔ user.id ∉ crowd.active
  /-- Nobody is forgotten who has not ended. -/
  ended : ∀ user ∈ crowd.users, user.id ∈ reaped crowd.log → user.activity.isOver = true

theorem tracked_empty (sink : LoadTest.Metric.Sink) : Tracked { sink } := by
  constructor <;> simp [Numbered, Crowd.spawned, reaped]

namespace Tracked

theorem nodup (h : crowd.Tracked) :
    (crowd.active ++ (crowd.draining ++ reaped crowd.log)).Nodup :=
  h.places.nodup_iff.mpr (List.nodup_range' ..)

theorem le_of_active (h : crowd.Tracked) {id : Nat} (mem : id ∈ crowd.active) :
    id ≤ crowd.users.length := by
  have := h.places.mem_iff.mp (List.mem_append_left _ mem)
  rw [List.mem_range'_1] at this
  omega

/-- Who drains is a user. -/
theorem user_of_draining (h : crowd.Tracked) {id : Nat} (mem : id ∈ crowd.draining) :
    ∃ user ∈ crowd.users, user.id = id :=
  h.numbered.mem_of_id (h.places.mem_iff.mp (List.mem_append_right _ (List.mem_append_left _ mem)))

end Tracked

/-! ### Changes in place -/

/-- **What users do has changed, and not where they are.** Who had ended has still ended. -/
structure InPlace (before after : Crowd) : Prop where
  active : after.active = before.active
  draining : after.draining = before.draining
  spawned : spawned after.log = spawned before.log
  reaped : reaped after.log = reaped before.log
  ids : after.users.map (·.id) = before.users.map (·.id)
  users : ∀ user' ∈ after.users, ∃ user ∈ before.users, user'.id = user.id ∧ user'.told = user.told
    ∧ (user.activity.isOver = true → user'.activity.isOver = true)

namespace InPlace

/-- Whatever keeps users, places and the log. -/
theorem ofUsers {before after : Crowd} (hactive : after.active = before.active)
    (hdraining : after.draining = before.draining) (hlog : after.log = before.log)
    (husers : after.users = before.users) : InPlace before after where
  active := hactive
  draining := hdraining
  spawned := by rw [hlog]
  reaped := by rw [hlog]
  ids := by rw [husers]
  users := fun user mem => ⟨user, husers ▸ mem, rfl, rfl, id⟩

theorem trans {a b c : Crowd} (first : InPlace a b) (second : InPlace b c) : InPlace a c where
  active := second.active.trans first.active
  draining := second.draining.trans first.draining
  spawned := second.spawned.trans first.spawned
  reaped := second.reaped.trans first.reaped
  ids := second.ids.trans first.ids
  users := by
    intro user'' mem''
    obtain ⟨user', mem', hid', htold', hover'⟩ := second.users user'' mem''
    obtain ⟨user, mem, hid, htold, hover⟩ := first.users user' mem'
    exact ⟨user, mem, hid'.trans hid, htold'.trans htold, hover' ∘ hover⟩

theorem length_eq {before after : Crowd} (h : InPlace before after) :
    after.users.length = before.users.length := by
  simpa using congrArg List.length h.ids

theorem numbered {before after : Crowd} (h : InPlace before after) (old : before.Numbered) :
    after.Numbered := by
  rw [Numbered, h.ids, h.length_eq]
  exact old

/-- A change of one user that keeps its identity and what it was told, and does not wake it up. -/
theorem ofWithUser (numbered : crowd.Numbered) (mem : user ∈ crowd.users) {f : User → User}
    (hid : ∀ user, (f user).id = user.id) (htold : (f user).told = user.told)
    (hover : user.activity.isOver = true → (f user).activity.isOver = true) :
    InPlace crowd (crowd.withUser user.id f) where
  active := rfl
  draining := rfl
  spawned := rfl
  reaped := rfl
  ids := map_withUser crowd user.id hid
  users := by
    intro user' mem'
    rcases (numbered.mem_withUser mem).mp mem' with rfl | ⟨mem', -⟩
    · exact ⟨user, mem, hid user, htold, hover⟩
    · exact ⟨user', mem', rfl, rfl, id⟩

/-- Noting what is neither a beginning nor an end of a place. -/
theorem ofNote (crowd : Crowd) {event : Event} (hspawned : ∀ user, event ≠ .spawned user)
    (hreaped : ∀ user, event ≠ .reaped user) : InPlace crowd (crowd.note event) where
  active := rfl
  draining := rfl
  spawned := by cases event <;> simp_all [note, Crowd.spawned]
  reaped := by cases event <;> simp_all [note, Crowd.reaped]
  ids := rfl
  users := fun user mem => ⟨user, mem, rfl, rfl, id⟩

end InPlace

/-- A change in place keeps every user in its place. -/
theorem Tracked.inPlace {before after : Crowd} (old : Tracked before) (h : InPlace before after) :
    Tracked after where
  numbered := h.numbered old.numbered
  spawned := by rw [h.spawned, h.length_eq, old.spawned]
  newest := h.active ▸ old.newest
  places := by
    rw [h.active, h.draining, h.reaped, h.length_eq]
    exact old.places
  told := by
    intro user' mem'
    obtain ⟨user, mem, hid, htold, -⟩ := h.users user' mem'
    rw [hid, htold, h.active]
    exact old.told user mem
  ended := by
    intro user' mem' hreaped
    obtain ⟨user, mem, hid, -, hover⟩ := h.users user' mem'
    rw [hid, h.reaped] at hreaped
    exact hover (old.ended user mem hreaped)

end LoadTest.Simulation.Crowd
