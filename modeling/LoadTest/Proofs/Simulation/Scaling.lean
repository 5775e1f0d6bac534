import LoadTest.Proofs.Simulation.Pool

/-!
# LoadTest.Proofs.Simulation.Scaling

The operations on the pool of users. **Scaling tells the newest to stop first,** reaping forgets those
that have ended, and aborting ends those that drain: what each of them does is said in full
(`Crowd.Scaled`, `Crowd.Swept`, `Crowd.Tracked.users_abort`), and each of them keeps every user in its
place.
-/

namespace LoadTest.Simulation.Crowd

variable {setting : Setting} {crowd : Crowd} {user : User}

/-! ### Scaling -/

/-- A new user takes the next identity and is the newest of those that count. -/
theorem Tracked.spawn (h : crowd.Tracked) : (crowd.spawn setting).Tracked where
  numbered := by
    have hnumbered : crowd.users.map (·.id) = List.range' 1 crowd.users.length := h.numbered
    simp [Crowd.spawn, note, Numbered, hnumbered, List.range'_concat, Nat.add_comm]
  spawned := by
    have hspawned : Crowd.spawned (crowd.spawn setting).log
        = (crowd.users.length + 1) :: Crowd.spawned crowd.log := rfl
    rw [hspawned, h.spawned]
    simp [Crowd.spawn, note, List.range'_concat, Nat.add_comm]
  newest := List.pairwise_cons.mpr ⟨fun id mem => Nat.lt_succ_of_le (h.le_of_active mem), h.newest⟩
  places := by
    have hlength : (crowd.spawn setting).users.length = crowd.users.length + 1 := by
      simp [Crowd.spawn, note]
    rw [hlength, List.range'_concat, Nat.one_mul, Nat.add_comm 1]
    exact (h.places.cons _).trans (List.perm_append_singleton ..).symm
  told := by
    intro user mem
    simp only [Crowd.spawn, note, List.mem_append, List.mem_singleton] at mem ⊢
    rcases mem with mem | rfl
    · have hid := h.numbered.id_mem mem
      rw [List.mem_range'_1] at hid
      rw [h.told user mem, List.mem_cons]
      refine not_congr ⟨.inr, fun hor => hor.resolve_left (by omega)⟩
    · simp
  ended := by
    intro user mem hreaped
    have hreaped : user.id ∈ reaped crowd.log := hreaped
    simp only [Crowd.spawn, note, List.mem_append, List.mem_singleton] at mem
    rcases mem with mem | rfl
    · exact h.ended user mem hreaped
    · have hplace : crowd.users.length + 1 ∈ List.range' 1 crowd.users.length :=
        h.places.mem_iff.mp (List.mem_append_right _ (List.mem_append_right _ hreaped))
      rw [List.mem_range'_1] at hplace
      omega

/-- The newest of those that count is told to stop, and drains. -/
theorem Tracked.dismiss (h : crowd.Tracked) : crowd.dismiss.Tracked := by
  unfold Crowd.dismiss
  cases hactive : crowd.active with
  | nil => exact h
  | cons id rest =>
      have hplaces := h.places
      have hnewest := h.newest
      rw [hactive] at hplaces hnewest
      obtain ⟨hold, hrest⟩ := List.pairwise_cons.mp hnewest
      obtain ⟨user, mem, rfl⟩ := h.numbered.mem_of_id (hplaces.mem_iff.mp List.mem_cons_self)
      let told := crowd.withUser user.id fun user => { user with told := true }
      have hids : told.users.map (·.id) = crowd.users.map (·.id) :=
        map_withUser crowd user.id fun _ => rfl
      have hlength : told.users.length = crowd.users.length := by
        simpa using congrArg List.length hids
      constructor
      · change told.users.map (·.id) = List.range' 1 told.users.length
        rw [hids, hlength]
        exact h.numbered
      · change Crowd.spawned crowd.log = (List.range' 1 told.users.length).reverse
        rw [hlength, h.spawned]
      · exact hrest
      · change (rest ++ (crowd.draining ++ [user.id] ++ reaped crowd.log)).Perm
          (List.range' 1 told.users.length)
        rw [hlength]
        have hmiddle : (rest ++ crowd.draining ++ user.id :: reaped crowd.log).Perm
            (user.id :: (rest ++ crowd.draining ++ reaped crowd.log)) := List.perm_middle
        exact .trans (by simpa using hmiddle) hplaces
      · intro other hother
        rcases (h.numbered.mem_withUser mem).mp hother with rfl | ⟨hother, hne⟩
        · have hirrefl : user.id ∉ rest := fun hmem => Nat.lt_irrefl _ (hold _ hmem)
          simpa [note, withUser] using hirrefl
        · have := h.told other hother
          rw [hactive, List.mem_cons] at this
          simpa [note, withUser, hne] using this
      · intro other hother hreaped
        rcases (h.numbered.mem_withUser mem).mp hother with rfl | ⟨hother, -⟩
        · exact h.ended user mem hreaped
        · exact h.ended other hother hreaped

/-- What holds of a pool and is kept as users are spawned and dismissed holds after scaling. -/
theorem scaleTo_induction {motive : Crowd → Prop}
    (spawn : ∀ crowd, motive crowd → motive (crowd.spawn setting))
    (dismiss : ∀ crowd, motive crowd → motive crowd.dismiss) (h : motive crowd) (target : Nat) :
    motive (crowd.scaleTo setting target) := by
  have hspawn : ∀ n crowd, motive crowd → motive (spawnMany setting n crowd) := by
    intro n
    induction n with
    | zero => exact fun _ h => h
    | succ n ih => exact fun crowd h => ih _ (spawn crowd h)
  have hdismiss : ∀ n crowd, motive crowd → motive (dismissMany n crowd) := by
    intro n
    induction n with
    | zero => exact fun _ h => h
    | succ n ih => exact fun crowd h => ih _ (dismiss crowd h)
  exact hdismiss _ _ (hspawn _ _ h)

theorem Tracked.scaleTo (h : crowd.Tracked) (target : Nat) : (crowd.scaleTo setting target).Tracked :=
  scaleTo_induction (fun _ h => h.spawn) (fun _ h => h.dismiss) h target

section

variable (setting) (n : Nat) (crowd)

theorem length_spawnMany : (spawnMany setting n crowd).users.length = crowd.users.length + n := by
  induction n generalizing crowd with
  | zero => rfl
  | succ n ih =>
      rw [spawnMany, ih]
      simp [spawn, note, Nat.add_assoc, Nat.add_comm 1]

theorem active_spawnMany : (spawnMany setting n crowd).active
    = (List.range' (crowd.users.length + 1) n).reverse ++ crowd.active := by
  induction n generalizing crowd with
  | zero => rfl
  | succ n ih =>
      have hlength : (crowd.spawn setting).users.length = crowd.users.length + 1 := by simp [spawn, note]
      rw [spawnMany, ih, hlength, List.range'_succ]
      simp [spawn, note]

theorem draining_spawnMany : (spawnMany setting n crowd).draining = crowd.draining := by
  induction n generalizing crowd with
  | zero => rfl
  | succ n ih => rw [spawnMany, ih]; rfl

theorem length_dismissMany : (dismissMany n crowd).users.length = crowd.users.length := by
  induction n generalizing crowd with
  | zero => rfl
  | succ n ih =>
      rw [dismissMany, ih]
      cases h : crowd.active <;> simp [dismiss, h, note, withUser]

theorem active_dismissMany : (dismissMany n crowd).active = crowd.active.drop n := by
  induction n generalizing crowd with
  | zero => rfl
  | succ n ih =>
      rw [dismissMany, ih]
      cases h : crowd.active <;> simp [dismiss, h, note, withUser]

theorem draining_dismissMany :
    (dismissMany n crowd).draining = crowd.draining ++ crowd.active.take n := by
  induction n generalizing crowd with
  | zero => simp [dismissMany]
  | succ n ih =>
      rw [dismissMany, ih]
      cases h : crowd.active <;> simp [dismiss, h, note, withUser]

/-- Telling a user to stop takes no time and cancels nothing. -/
theorem now_dismiss : crowd.dismiss.now = crowd.now ∧ crowd.dismiss.cancelled = crowd.cancelled := by
  cases h : crowd.active <;> simp [dismiss, h, note, withUser]

/-- Scaling takes no time and cancels nothing. -/
theorem now_scaleTo : (crowd.scaleTo setting n).now = crowd.now
    ∧ (crowd.scaleTo setting n).cancelled = crowd.cancelled := by
  let kept (after : Crowd) : Prop := after.now = crowd.now ∧ after.cancelled = crowd.cancelled
  have hspawn : ∀ after, kept after → kept (after.spawn setting) := fun _ h => h
  have hdismiss : ∀ after, kept after → kept after.dismiss := fun after h =>
    ⟨(now_dismiss after).1.trans h.1, (now_dismiss after).2.trans h.2⟩
  exact scaleTo_induction hspawn hdismiss (motive := kept) ⟨rfl, rfl⟩ n

end

/-- **What scaling does.** The users missing are spawned, and of those too many the newest are told to
stop; afterwards as many count toward the target as it asks for. -/
structure Scaled (target : Nat) (before after : Crowd) : Prop where
  live : after.live = target
  length : after.users.length = before.users.length + (target - before.live)
  /-- The newest come first: new users before the old ones that are left. -/
  active : after.active = (List.range' (before.users.length + 1) (target - before.live)).reverse
    ++ before.active.drop (before.live - target)
  draining : after.draining = before.draining ++ before.active.take (before.live - target)
  /-- Whoever is told to stop now is newer than whoever is left. -/
  newest : ∀ a ∈ before.active.take (before.live - target),
    ∀ b ∈ before.active.drop (before.live - target), b < a
  /-- Nobody else is told to stop, and nobody is told to go on. -/
  told : ∀ user' ∈ after.users, user'.told = true ↔
    user'.id ∈ before.active.take (before.live - target)
      ∨ ∃ user ∈ before.users, user.id = user'.id ∧ user.told = true

/-- Who was told to stop: an old user that does not count toward the target. -/
theorem Tracked.exists_told_iff (h : crowd.Tracked) {id : Nat} (hpos : 1 ≤ id) :
    (∃ user ∈ crowd.users, user.id = id ∧ user.told = true)
      ↔ id ≤ crowd.users.length ∧ id ∉ crowd.active := by
  constructor
  · rintro ⟨user, mem, rfl, htold⟩
    exact ⟨h.numbered.id_le mem, (h.told user mem).mp htold⟩
  · rintro ⟨hle, hnot⟩
    obtain ⟨user, mem, rfl⟩ := h.numbered.mem_of_id (List.mem_range'_1.mpr ⟨hpos, by omega⟩)
    exact ⟨user, mem, rfl, (h.told user mem).mpr hnot⟩

theorem Tracked.scaled (h : crowd.Tracked) (target : Nat) :
    Scaled target crowd (crowd.scaleTo setting target) := by
  have htracked : (crowd.scaleTo setting target).Tracked := h.scaleTo target
  have hlength : (crowd.scaleTo setting target).users.length
      = crowd.users.length + (target - crowd.live) := by
    rw [Crowd.scaleTo, length_dismissMany, length_spawnMany]
  have hactive : (crowd.scaleTo setting target).active
      = (List.range' (crowd.users.length + 1) (target - crowd.live)).reverse
        ++ crowd.active.drop (crowd.live - target) := by
    rw [Crowd.scaleTo, active_dismissMany, active_spawnMany]
    -- Users are either spawned or dismissed, never both.
    rcases Nat.le_total target crowd.live with hle | hle
    · simp [Nat.sub_eq_zero_of_le hle]
    · simp [Nat.sub_eq_zero_of_le hle]
  have hdraining : (crowd.scaleTo setting target).draining
      = crowd.draining ++ crowd.active.take (crowd.live - target) := by
    rw [Crowd.scaleTo, draining_dismissMany, active_spawnMany, draining_spawnMany]
    rcases Nat.le_total target crowd.live with hle | hle
    · simp [Nat.sub_eq_zero_of_le hle]
    · simp [Nat.sub_eq_zero_of_le hle]
  have hsplit := h.newest
  rw [← List.take_append_drop (crowd.live - target) crowd.active] at hsplit
  refine ⟨?_, hlength, hactive, hdraining, (List.pairwise_append.mp hsplit).2.2, ?_⟩
  · rw [live, hactive, List.length_append, List.length_reverse, List.length_range', List.length_drop]
    change target - crowd.live + (crowd.live - (crowd.live - target)) = target
    omega
  · intro user' mem'
    rw [htracked.told user' mem', hactive]
    have hid := htracked.numbered.id_mem mem'
    rw [hlength, List.mem_range'_1] at hid
    have hparts : user'.id ∈ crowd.active ↔ user'.id ∈ crowd.active.take (crowd.live - target)
        ∨ user'.id ∈ crowd.active.drop (crowd.live - target) := by
      rw [← List.mem_append, List.take_append_drop]
    have hdisjoint : user'.id ∈ crowd.active.take (crowd.live - target) →
        user'.id ∉ crowd.active.drop (crowd.live - target) := fun htake hdrop =>
      Nat.lt_irrefl _ ((List.pairwise_append.mp hsplit).2.2 _ htake _ hdrop)
    have hle : user'.id ∈ crowd.active → user'.id ≤ crowd.users.length := h.le_of_active
    rw [h.exists_told_iff hid.1, List.mem_append, List.mem_reverse, List.mem_range'_1]
    -- What is left is a question of which of the four lists the identity is in.
    grind

/-! ### Reaping -/

theorem foldl_note_reaped (ids : List Nat) (crowd : Crowd) :
    ids.foldl (fun crowd id => crowd.note (.reaped id)) crowd
      = { crowd with log := (ids.map fun id => (crowd.now, Event.reaped id)).reverse ++ crowd.log } := by
  induction ids generalizing crowd with
  | nil => rfl
  | cons id rest ih =>
      rw [List.foldl_cons, ih]
      simp [note]

/-- **What forgetting does.** Those that drain and have ended are forgotten, and nobody else. -/
structure Swept (before after : Crowd) : Prop where
  users : after.users = before.users
  active : after.active = before.active
  draining : after.draining = before.draining.filter fun id => !before.isOver id
  spawned : spawned after.log = spawned before.log
  reaped : reaped after.log = (before.draining.filter before.isOver).reverse ++ reaped before.log

theorem swept_reap (crowd : Crowd) : Swept crowd crowd.reap := by
  unfold reap
  simp only [foldl_note_reaped]
  refine ⟨rfl, rfl, rfl, ?_, ?_⟩
  · have hnone : spawned ((crowd.draining.filter crowd.isOver).map fun id =>
        (crowd.now, Event.reaped id)).reverse = [] := by
      simp [spawned]
    rw [Crowd.spawned, List.filterMap_append]
    exact congrArg (· ++ _) hnone
  · rw [Crowd.reaped, List.filterMap_append, List.filterMap_reverse, List.filterMap_map]
    congr 2
    exact List.filterMap_some

/-- Forgetting those that have ended keeps every user in its place. -/
theorem Tracked.reap (h : crowd.Tracked) : crowd.reap.Tracked := by
  have hswept := swept_reap crowd
  have hlength : crowd.reap.users.length = crowd.users.length := by rw [hswept.users]
  constructor
  · rw [Numbered, hswept.users]
    exact h.numbered
  · rw [hswept.spawned, hlength, h.spawned]
  · exact hswept.active ▸ h.newest
  · rw [hswept.active, hswept.draining, hswept.reaped, hlength]
    refine .trans (.append_left _ ?_) h.places
    calc crowd.draining.filter (fun id => !crowd.isOver id)
            ++ ((crowd.draining.filter crowd.isOver).reverse ++ Crowd.reaped crowd.log)
        _ |>.Perm (crowd.draining.filter (fun id => !crowd.isOver id)
            ++ (crowd.draining.filter crowd.isOver ++ Crowd.reaped crowd.log)) :=
          .append_left _ (.append_right _ (List.reverse_perm _))
        _ = crowd.draining.filter (fun id => !crowd.isOver id) ++ crowd.draining.filter crowd.isOver
            ++ Crowd.reaped crowd.log := (List.append_assoc ..).symm
        _ |>.Perm (crowd.draining ++ Crowd.reaped crowd.log) :=
          .append_right _ (List.perm_append_comm.trans (List.filter_append_perm ..))
  · rw [hswept.users, hswept.active]
    exact h.told
  · intro user mem hreaped
    rw [hswept.users] at mem
    rw [hswept.reaped, List.mem_append, List.mem_reverse, List.mem_filter] at hreaped
    rcases hreaped with ⟨-, hover⟩ | hreaped
    · rwa [isOver_eq h.numbered mem] at hover
    · exact h.ended user mem hreaped

/-! ### Aborting -/

/-- Aborting a user leaves everybody in place. -/
theorem inPlace_abortUser (numbered : crowd.Numbered) (mem : user ∈ crowd.users) :
    InPlace crowd (crowd.abortUser user.id) := by
  refine .trans (.ofWithUser numbered mem ?_ ?_ ?_) (.ofNote _ ?_ ?_)
  · exact fun _ => rfl
  · rfl
  · exact fun _ => rfl
  · simp
  · simp

theorem numbered_abortUser (h : crowd.Numbered) (id : Nat) : (crowd.abortUser id).Numbered := by
  have hids : (crowd.abortUser id).users.map (·.id) = crowd.users.map (·.id) :=
    map_withUser crowd id fun _ => rfl
  have hlength : (crowd.abortUser id).users.length = crowd.users.length := by
    simpa using congrArg List.length hids
  rw [Numbered, hids, hlength]
  exact h

theorem users_foldl_abortUser (h : crowd.Numbered) {ids : List Nat} (hids : ∀ id ∈ ids, 0 < id) :
    (ids.foldl abortUser crowd).users = crowd.users.map fun user =>
      if user.id ∈ ids then { user with activity := .aborted } else user := by
  induction ids generalizing crowd with
  | nil => simp
  | cons id rest ih =>
      have hfirst : (crowd.abortUser id).users = crowd.users.map fun user =>
          if user.id = id then { user with activity := .aborted } else user :=
        h.users_withUser (hids id List.mem_cons_self) _
      rw [List.foldl_cons, ih (numbered_abortUser h id) fun id mem => hids id (List.mem_cons_of_mem _ mem),
        hfirst, List.map_map]
      refine List.map_congr_left fun user _ => ?_
      by_cases hid : user.id = id <;> by_cases hrest : user.id ∈ rest <;> simp [hid, hrest]

/-- When nobody counts toward the target any more, those who drain and have not ended are all who have
not. -/
theorem Tracked.mem_unfinished (h : crowd.Tracked) (hactive : crowd.active = [])
    (mem : user ∈ crowd.users) :
    user.id ∈ crowd.draining.filter (fun id => !crowd.isOver id) ↔ user.activity.isOver = false := by
  rw [List.mem_filter, isOver_eq h.numbered mem]
  refine ⟨fun ⟨_, hover⟩ => by simpa using hover, fun hover => ⟨?_, by simp [hover]⟩⟩
  have hplace := h.places.mem_iff.mpr (h.numbered.id_mem mem)
  rw [hactive, List.nil_append, List.mem_append] at hplace
  refine hplace.resolve_right fun hreaped => ?_
  simp [h.ended user mem hreaped] at hover

/-- Aborting ends all who have not ended and changes nobody else. -/
theorem Tracked.users_abort (h : crowd.Tracked) (hactive : crowd.active = []) :
    crowd.abort.users = crowd.users.map fun user =>
      if user.activity.isOver then user else { user with activity := .aborted } := by
  have hpos : ∀ id ∈ crowd.draining.filter (fun id => !crowd.isOver id), 0 < id := by
    intro id mem
    obtain ⟨user, hmem, rfl⟩ := h.user_of_draining (List.mem_of_mem_filter mem)
    exact h.numbered.id_pos hmem
  rw [abort, users_foldl_abortUser h.numbered hpos]
  refine List.map_congr_left fun user mem => ?_
  cases hover : user.activity.isOver with
  | true => rw [if_neg (by simp [h.mem_unfinished hactive mem, hover]), if_pos rfl]
  | false => rw [if_pos ((h.mem_unfinished hactive mem).mpr hover), if_neg Bool.false_ne_true]

theorem Tracked.allOver_abort (h : crowd.Tracked) (hactive : crowd.active = []) :
    crowd.abort.allOver = true := by
  rw [allOver, h.users_abort hactive, List.all_map, List.all_eq_true]
  intro user _
  by_cases hover : user.activity.isOver = true
  · rw [Function.comp, if_pos hover]
    exact hover
  · rw [Function.comp, if_neg hover]
    rfl

/-- Those who drain and have not ended are as many as have not ended at all. -/
theorem Tracked.stillDraining_eq (h : crowd.Tracked) (hactive : crowd.active = []) :
    crowd.stillDraining = crowd.users.countP fun user => !user.activity.isOver := by
  have hreaped : (reaped crowd.log).countP (fun id => !crowd.isOver id) = 0 := by
    refine List.countP_eq_zero.mpr fun id mem => ?_
    have hplace := h.places.mem_iff.mp (List.mem_append_right _ (List.mem_append_right _ mem))
    obtain ⟨user, hmem, rfl⟩ := h.numbered.mem_of_id hplace
    simp [isOver_eq h.numbered hmem, h.ended user hmem mem]
  have hplaces := h.places
  rw [hactive, List.nil_append, ← h.numbered] at hplaces
  calc crowd.stillDraining
      _ = (crowd.draining ++ reaped crowd.log).countP (fun id => !crowd.isOver id) := by
            rw [List.countP_append, hreaped, Nat.add_zero, stillDraining]
      _ = (crowd.users.map (·.id)).countP (fun id => !crowd.isOver id) := hplaces.countP_eq _
      _ = crowd.users.countP fun user => !user.activity.isOver := by
            rw [List.countP_map]
            refine List.countP_congr fun user mem => ?_
            simp [isOver_eq h.numbered mem]

end LoadTest.Simulation.Crowd
