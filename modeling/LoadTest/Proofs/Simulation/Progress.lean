import LoadTest.Proofs.Simulation.Reach
import LoadTest.Proofs.Simulation.Shutdown

/-!
# LoadTest.Proofs.Simulation.Progress

Runs do not get stuck. **Where no user begins an iteration any more, the run comes to the end of its
phase:** of what can still happen each thing happens once, and between two of them time passes at most
once, to the next moment that anyone waits for (`State.leads_to_advance`).
-/

namespace LoadTest.Simulation

open Crowd Relation

/-- Nobody begins an iteration: every user has ended or has been told to stop. -/
def Crowd.Resigned (crowd : Crowd) : Prop :=
  ∀ user ∈ crowd.users, user.activity.isOver = true ∨ user.told = true

namespace Crowd

variable {crowd after : Crowd}

/-- Nobody is told to go on again. -/
theorem Resigned.inPlace (h : crowd.Resigned) (place : InPlace crowd after) : after.Resigned := by
  intro user' mem'
  obtain ⟨user, mem, -, htold, hover⟩ := place.users user' mem'
  exact (h user mem).imp hover htold.trans

theorem resigned_of_allOver (h : crowd.allOver = true) : crowd.Resigned :=
  fun user mem => .inl (List.all_eq_true.mp h user mem)

/-- Where nobody counts toward the target everybody has been told to stop. -/
theorem Tracked.resigned (h : crowd.Tracked) (hactive : crowd.active = []) : crowd.Resigned := by
  intro user mem
  right
  rw [h.told user mem, hactive]
  exact List.not_mem_nil

/-- Who waits for a time goes on when it has come. -/
theorem canStep_of_due {user : User} {due : Nat} (waits : user.activity.due? = some due)
    (come : due ≤ crowd.now) : crowd.canStep user = true := by
  cases hactivity : user.activity <;> simp_all [Activity.due?, canStep, User.canStep]

theorem isSome_runnable?_iff :
    crowd.runnable?.isSome = true ↔ ∃ user ∈ crowd.users, crowd.canStep user = true :=
  List.find?_isSome

end Crowd

namespace State

variable {setting : Setting} {state next : State}

/-! ### What is made of a run -/

/-- Some number of steps makes a run into another. -/
def Leads (setting : Setting) (state next : State) : Prop := ∃ fuel, state.run setting fuel = next

theorem run_of_isEnded (h : state.phase.isEnded = true) (fuel : Nat) : state.run setting fuel = state := by
  cases fuel with
  | zero => rfl
  | succ fuel => rw [run, if_pos h]

theorem run_add (m n : Nat) (state : State) :
    state.run setting (m + n) = (state.run setting m).run setting n := by
  induction m generalizing state with
  | zero => rw [Nat.zero_add, run]
  | succ m ih =>
      rw [Nat.succ_add, run, run]
      split
      · next ended => exact (run_of_isEnded ended n).symm
      · exact ih _

namespace Leads

theorem refl (state : State) : Leads setting state state := ⟨0, rfl⟩

theorem trans {a b c : State} (first : Leads setting a b) (second : Leads setting b c) :
    Leads setting a c := by
  obtain ⟨m, rfl⟩ := first
  obtain ⟨n, rfl⟩ := second
  exact ⟨m + n, run_add m n a⟩

/-- A run that has not ended takes the step that is chosen. -/
theorem choose (h : state.phase.isEnded = false) :
    Leads setting state (state.perform setting state.choose) := by
  refine ⟨1, ?_⟩
  rw [run, if_neg (by simp [h]), run]

theorem reaches {upcoming : List (Nat × Command)} {cancelAt : Option Nat}
    (leads : Leads setting state next) (h : Reaches setting upcoming cancelAt state) :
    Reaches setting upcoming cancelAt next := by
  obtain ⟨fuel, rfl⟩ := leads
  exact h.trans (steps_run setting fuel state)

end Leads

/-! ### What is chosen -/

/-- What is chosen can happen, unless time passes. -/
theorem isEnabled_choose (h : state.choose ≠ .wait) : state.isEnabled state.choose = true := by
  unfold choose at h ⊢
  split
  · next enabled => exact enabled
  · split
    · next enabled => exact enabled
    · split
      · next enabled => exact enabled
      · cases hrun : state.crowd.runnable? with
        | some user =>
            have mem := List.mem_of_find?_eq_some hrun
            have can : state.crowd.canStep user = true := List.find?_some hrun
            exact isEnabled_user_iff.mpr ⟨mem, can⟩
        | none => simp_all

/-- Time passes only where nothing else can happen. -/
theorem choose_ne_wait (action : Action) (h : state.isEnabled action = true) : state.choose ≠ .wait := by
  unfold choose
  split_ifs with hdeliver hcancel hadvance
  · exact Action.noConfusion
  · exact Action.noConfusion
  · exact Action.noConfusion
  · cases action with
    | deliver => exact absurd h hdeliver
    | cancel => exact absurd h hcancel
    | advance => exact absurd h hadvance
    | wait => simp [isEnabled] at h
    | user user =>
        obtain ⟨mem, can⟩ := isEnabled_user_iff.mp h
        obtain ⟨first, hfirst⟩ :=
          Option.isSome_iff_exists.mp (isSome_runnable?_iff.mpr ⟨user, mem, can⟩)
        rw [hfirst]
        exact Action.noConfusion

/-- When the time of a phase has come, the run itself can go on. -/
theorem canAdvance_of_due {due : Nat} (waits : state.phase.due? = some due)
    (come : due ≤ state.crowd.now) : state.canAdvance = true := by
  unfold canAdvance
  cases hphase : state.phase <;> simp_all [Phase.due?]

/-- When a time has come that somebody waits for, something can happen. -/
theorem choose_ne_wait_of_due (due : Nat) (waits : state.nextDue? = some due)
    (come : due ≤ state.crowd.now) : state.choose ≠ .wait := by
  have hmem := List.min?_mem waits
  simp only [List.mem_append, Option.mem_toList] at hmem
  rcases hmem with ((hphase | huser) | hcommand) | hcancel
  · exact choose_ne_wait .advance (canAdvance_of_due hphase come)
  · obtain ⟨user, mem, hdue⟩ := List.mem_filterMap.mp (List.min?_mem huser)
    exact choose_ne_wait (.user user) (isEnabled_user_iff.mpr ⟨mem, canStep_of_due hdue come⟩)
  · refine choose_ne_wait .deliver ?_
    obtain ⟨command, hhead, rfl⟩ := Option.map_eq_some_iff.mp hcommand
    simp [isEnabled, hhead, come]
  · refine choose_ne_wait .cancel ?_
    simp [isEnabled, Option.mem_def.mp hcancel, come]

/-! ### What is left to happen -/

/-- How many things can still happen before the run itself goes on: commands, the cancellation, and turns
of users that end. -/
def outstanding (state : State) : Nat :=
  state.upcoming.length + state.cancelAt.toList.length + state.crowd.turnsOfAll

/-- More steps than this are not taken before the run itself goes on. -/
def stepsAhead (state : State) : Nat :=
  2 * state.outstanding + if state.choose = .wait then 1 else 0

theorem inPlace_perform (setting : Setting) {action : Action} (numbered : state.crowd.Numbered)
    (enabled : state.isEnabled action = true) (other : action ≠ .advance) :
    InPlace state.crowd (state.perform setting action).crowd
      ∧ (state.perform setting action).phase = state.phase := by
  cases action with
  | advance => exact absurd rfl other
  | wait => simp [isEnabled] at enabled
  | cancel => exact ⟨.ofUsers rfl rfl rfl rfl, rfl⟩
  | deliver =>
      unfold perform
      cases state.upcoming <;> exact ⟨.ofUsers rfl rfl rfl rfl, rfl⟩
  | user user =>
      obtain ⟨mem, can⟩ := isEnabled_user_iff.mp enabled
      have hturn : Turn setting state.crowd user (state.crowd.stepUser setting user) := turn_stepUser can
      exact ⟨hturn.inPlace numbered mem (awake_of_canStep can), rfl⟩

/-- Whatever happens but the run itself going on, less is left to happen. -/
theorem outstanding_perform_lt (setting : Setting) {action : Action} (numbered : state.crowd.Numbered)
    (resigned : state.crowd.Resigned) (enabled : state.isEnabled action = true)
    (other : action ≠ .advance) : (state.perform setting action).outstanding < state.outstanding := by
  cases action with
  | advance => exact absurd rfl other
  | wait => simp [isEnabled] at enabled
  | deliver =>
      cases hupcoming : state.upcoming with
      | nil => simp [isEnabled, hupcoming] at enabled
      | cons first rest =>
          simp only [perform, hupcoming, outstanding, List.length_cons]
          omega
  | cancel =>
      cases hcancel : state.cancelAt with
      | none => simp [isEnabled, hcancel] at enabled
      | some time =>
          have hsame : ({ state.crowd with cancelled := true } : Crowd).turnsOfAll
            = state.crowd.turnsOfAll := rfl
          simp [perform, outstanding, hcancel, hsame]
  | user user =>
      obtain ⟨mem, can⟩ := isEnabled_user_iff.mp enabled
      have awake := awake_of_canStep can
      have told : user.told = true := (resigned user mem).resolve_left (by simp [awake])
      have hturn : Turn setting state.crowd user (state.crowd.stepUser setting user) := turn_stepUser can
      have hless := hturn.turnsOfAll_lt numbered mem awake told
      simp only [perform, withCrowd, outstanding]
      omega

/-- A phase that waits for a time has one to wait for. -/
theorem exists_nextDue_of_phase (waits : state.phase.due?.isSome = true) :
    ∃ due, state.nextDue? = some due := by
  obtain ⟨first, hfirst⟩ := Option.isSome_iff_exists.mp waits
  refine Option.isSome_iff_exists.mp (Option.isSome_iff_ne_none.mpr fun hnone => ?_)
  have hempty := List.min?_eq_none_iff.mp hnone
  simp [hfirst] at hempty

/-- After time has passed something can happen. -/
theorem exists_wait (setting : Setting) (waits : state.phase.due?.isSome = true) :
    ∃ now, state.perform setting .wait = state.withCrowd (fun crowd => { crowd with now })
      ∧ (state.perform setting .wait).choose ≠ .wait := by
  obtain ⟨due, hdue⟩ := exists_nextDue_of_phase waits
  have hwait : state.perform setting .wait
      = state.withCrowd fun crowd => { crowd with now := max crowd.now due } := by
    rw [perform, hdue]
  refine ⟨_, hwait, ?_⟩
  rw [hwait]
  refine choose_ne_wait_of_due due ?_ (Nat.le_max_right ..)
  rw [← hdue]
  rfl

/-- Any step but that of the run itself keeps the phase, and brings the run nearer to that step. -/
theorem stepsAhead_perform_lt (setting : Setting) (numbered : state.crowd.Numbered)
    (resigned : state.crowd.Resigned) (waits : state.phase.due?.isSome = true)
    (other : state.choose ≠ .advance) :
    InPlace state.crowd (state.perform setting state.choose).crowd
      ∧ (state.perform setting state.choose).phase = state.phase
      ∧ (state.perform setting state.choose).stepsAhead < state.stepsAhead := by
  by_cases hwait : state.choose = .wait
  · obtain ⟨now, hlater, hnext⟩ := exists_wait setting waits
    rw [hlater] at hnext
    have hsame : (state.withCrowd fun crowd => { crowd with now }).outstanding = state.outstanding := rfl
    rw [hwait, hlater]
    refine ⟨.ofUsers rfl rfl rfl rfl, rfl, ?_⟩
    simp only [stepsAhead, hsame, if_neg hnext, if_pos hwait]
    omega
  · have enabled := isEnabled_choose hwait
    obtain ⟨hplace, hphase⟩ := inPlace_perform setting numbered enabled other
    have hless := outstanding_perform_lt setting numbered resigned enabled other
    refine ⟨hplace, hphase, ?_⟩
    simp only [stepsAhead, if_neg hwait]
    split <;> omega

/-- **A run in which nobody begins an iteration goes on.** However many commands are still to come and
however many users are still to end, the steps that are chosen lead to one with which the phase ends. -/
theorem leads_to_advance (setting : Setting) (numbered : state.crowd.Numbered)
    (resigned : state.crowd.Resigned) (waits : state.phase.due?.isSome = true) :
    ∃ next, Leads setting state next ∧ next.phase = state.phase ∧ next.canAdvance = true
      ∧ Leads setting next (next.advance setting) := by
  have hnot : state.phase.isEnded = false := by
    cases hphase : state.phase <;> simp_all [Phase.due?, Phase.isEnded]
  have hstep : Leads setting state (state.perform setting state.choose) := .choose hnot
  induction hn : state.stepsAhead using Nat.strongRecOn generalizing state with
  | ind n ih =>
      subst hn
      by_cases hadvance : state.choose = .advance
      · refine ⟨state, .refl state, rfl, ?_, ?_⟩
        · have enabled : state.isEnabled state.choose = true := isEnabled_choose (by simp [hadvance])
          rwa [hadvance] at enabled
        · rwa [hadvance] at hstep
      · obtain ⟨hplace, hphase, hless⟩ :=
          stepsAhead_perform_lt setting numbered resigned waits hadvance
        have hgoes : (state.perform setting state.choose).phase.isEnded = false := hphase ▸ hnot
        obtain ⟨next, hnext, hsame, hcan, hfinal⟩ := ih _ hless (hplace.numbered numbered)
          (resigned.inPlace hplace) (hphase ▸ waits) hgoes (.choose hgoes) rfl
        exact ⟨next, hstep.trans hnext, hsame.trans hphase, hcan, hfinal⟩

end State

end LoadTest.Simulation
