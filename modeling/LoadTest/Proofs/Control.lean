import LoadTest.Control
import Mathlib.Data.List.Induction

/-!
# LoadTest.Proofs.Control

Waiting while a run is paused. **A waiter that is polled passes exactly if the run is not paused at that
moment,** whatever was paused, resumed and polled before. A waiter that sleeps looks at the run again only
after the run has been resumed since its last look, so what has to be shown is that it misses nothing: as
long as there was no such resumption the run is still paused (`Waiter.Honest`).
-/

namespace LoadTest

/-- Something that happens to a run and to those who wait for it. -/
inductive WaitEvent where
  | pause
  | resume
  /-- One more waiter comes, and has not looked yet. -/
  | enter
  /-- The waiter of a number has the chance to look. -/
  | poll (waiter : Nat)
  deriving DecidableEq

/-- A run and those who wait for it, in the order in which they came. -/
structure WaitingRoom where
  control : Control := {}
  waiters : List Waiter := []
  deriving DecidableEq

namespace WaitingRoom

/-- What an event makes of a run and of those who wait for it. -/
def step (room : WaitingRoom) : WaitEvent → WaitingRoom
  | .pause => { room with control := room.control.pause }
  | .resume => { room with control := room.control.resume }
  | .enter => { room with waiters := room.waiters ++ [.fresh] }
  | .poll waiter => { room with waiters := room.waiters.modify waiter (·.poll room.control) }

/-- A new run, after some events in order. -/
def after (events : List WaitEvent) : WaitingRoom := events.foldl step {}

theorem after_concat (events : List WaitEvent) (event : WaitEvent) :
    after (events ++ [event]) = (after events).step event := by
  rw [after, List.foldl_append]
  rfl

end WaitingRoom

/-! ### What a waiter remembers -/

/-- What a sleeping waiter remembers is true: the run has been resumed that often, and where it has not
been resumed since, it is still paused. -/
def Waiter.Honest (control : Control) : Waiter → Prop
  | .asleep resumes =>
      resumes ≤ control.resumes ∧ (resumes = control.resumes → control.paused = true)
  | _ => True

namespace Waiter

variable {control : Control} {waiter : Waiter}

theorem Honest.pause (h : waiter.Honest control) : waiter.Honest control.pause := by
  cases waiter with
  | asleep resumes => exact ⟨h.1, fun _ => rfl⟩
  | _ => trivial

/-- After a run is resumed no sleeping waiter has looked since. -/
theorem Honest.resume (h : waiter.Honest control) : waiter.Honest control.resume := by
  cases waiter with
  | asleep resumes =>
      unfold Control.resume
      split
      · have hle := h.1
        refine ⟨Nat.le_succ_of_le hle, fun heq => ?_⟩
        have : resumes = control.resumes + 1 := heq
        omega
      · exact h
  | _ => trivial

/-- Whoever falls asleep has just found the run paused. -/
theorem honest_look (control : Control) :
    (if control.paused then Waiter.asleep control.resumes else .done).Honest control := by
  split
  · next hpaused => exact ⟨Nat.le_refl _, fun _ => hpaused⟩
  · trivial

theorem Honest.poll (h : waiter.Honest control) : (waiter.poll control).Honest control := by
  cases waiter with
  | fresh => exact honest_look control
  | asleep resumes =>
      by_cases hsame : control.resumes = resumes
      · rw [Waiter.poll, if_pos hsame]
        exact h
      · rw [Waiter.poll, if_neg hsame]
        exact honest_look control
  | done => trivial

/-- An honest waiter that has not passed yet passes when it is polled, exactly if the run is not paused. -/
theorem Honest.poll_eq_done_iff (h : waiter.Honest control) (waiting : waiter ≠ .done) :
    waiter.poll control = .done ↔ control.paused = false := by
  cases waiter with
  | fresh => cases hpaused : control.paused <;> simp [Waiter.poll, hpaused]
  | asleep resumes =>
      by_cases hsame : control.resumes = resumes
      -- It has missed nothing, so the run is paused.
      · have hpaused := h.2 hsame.symm
        simp [Waiter.poll, hsame, hpaused]
      · cases hpaused : control.paused <;> simp [Waiter.poll, hsame, hpaused]
  | done => exact absurd rfl waiting

end Waiter

/-! ### Every waiter of a run -/

namespace WaitingRoom

/-- No waiter remembers anything false. -/
def Sound (room : WaitingRoom) : Prop := ∀ waiter ∈ room.waiters, waiter.Honest room.control

theorem Sound.step {room : WaitingRoom} (h : room.Sound) (event : WaitEvent) : (room.step event).Sound := by
  intro waiter mem
  cases event with
  | pause => exact (h waiter mem).pause
  | resume => exact (h waiter mem).resume
  | enter =>
      rcases List.mem_append.mp mem with mem | mem
      · exact h waiter mem
      · obtain rfl := List.mem_singleton.mp mem
        trivial
  | poll number =>
      obtain ⟨i, hget⟩ := List.mem_iff_getElem?.mp mem
      rw [WaitingRoom.step, List.getElem?_modify] at hget
      obtain ⟨old, hold, rfl⟩ := Option.map_eq_some_iff.mp hget
      have honest := h old (List.mem_of_getElem? hold)
      split
      · exact honest.poll
      · exact honest

theorem sound_after (events : List WaitEvent) : (after events).Sound := by
  induction events using List.reverseRecOn with
  | nil => exact fun waiter mem => absurd mem List.not_mem_nil
  | append_singleton events event ih =>
      rw [after_concat]
      exact ih.step event

/-- **No wake-up is lost, and none comes early.** Whatever happened before, a waiter that has not passed
yet passes when it is polled if the run is not paused at that moment, and does not pass if it is. -/
theorem passes_iff (events : List WaitEvent) {number : Nat} {waiter : Waiter}
    (present : (after events).waiters[number]? = some waiter) (waiting : waiter ≠ .done) :
    (after (events ++ [.poll number])).waiters[number]? = some .done
      ↔ (after events).control.paused = false := by
  have honest := sound_after events waiter (List.mem_of_getElem? present)
  have hpolled : (after (events ++ [.poll number])).waiters[number]?
      = some (waiter.poll (after events).control) := by
    rw [after_concat, WaitingRoom.step, List.getElem?_modify_eq, present]
    rfl
  rw [hpolled, Option.some_inj, honest.poll_eq_done_iff waiting]

/-- A run that is resumed and paused again between two polls: its waiter wakes up for nothing. -/
def restless : List WaitEvent := [.pause, .enter, .poll 0, .resume, .pause, .poll 0, .pause]

/-- That waiter sleeps on, and passes once the run is resumed again. -/
theorem restless_waiter_passes :
    (after restless).waiters[0]? = some (.asleep 1)
      ∧ (after (restless ++ [.poll 0])).waiters[0]? ≠ some .done
      ∧ (after (restless ++ [.resume])).waiters[0]? = some (.asleep 1)
      ∧ (after (restless ++ [.resume] ++ [.poll 0])).waiters[0]? = some .done := by
  have hasleep : (after restless).waiters[0]? = some (.asleep 1) := by decide
  have hstill : (after (restless ++ [.resume])).waiters[0]? = some (.asleep 1) := by decide
  refine ⟨hasleep, fun hdone => ?_, hstill, ?_⟩
  · have hpaused : (after restless).control.paused = true := by decide
    rw [(passes_iff restless hasleep Waiter.noConfusion).mp hdone] at hpaused
    exact Bool.noConfusion hpaused
  · exact (passes_iff (restless ++ [.resume]) hstill Waiter.noConfusion).mpr (by decide)

end WaitingRoom

end LoadTest
