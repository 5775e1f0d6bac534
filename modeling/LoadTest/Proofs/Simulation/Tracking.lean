import LoadTest.Proofs.Simulation.Change
import Mathlib.Data.List.MinMax
import Mathlib.Order.Nat

/-!
# LoadTest.Proofs.Simulation.Tracking

How the number of users follows what is asked for. **A look at the schedule that does not end the load
leaves as many users as the last number commanded, or else the schedule, asks for.** Which commands have
been followed, and why the run was cancelled if it was, is an invariant of every run (`State.Heeds`); that
the greatest number of users at a look is the one reported is another (`Tallies`).
-/

namespace LoadTest.Simulation

open Crowd Relation

variable {setting : Setting} {upcoming : List (Nat × Command)} {cancelAt : Option Nat}

/-- The most users at a look. -/
def Crowd.peakOf (log : List (Nat × Event)) : Nat := (looks log).foldr max 0

theorem Crowd.failed_note (event : Event) (crowd : Crowd) :
    Failed (crowd.note event).log ↔ (∃ clock, event = .checked clock false) ∨ Failed crowd.log := by
  simp only [Failed, note, List.mem_cons, Prod.mk.injEq]
  constructor
  · rintro ⟨time, clock, ⟨-, heq⟩ | mem⟩
    · exact .inl ⟨clock, heq.symm⟩
    · exact .inr ⟨time, clock, mem⟩
  · rintro (⟨clock, heq⟩ | ⟨time, clock, mem⟩)
    · exact ⟨crowd.now, clock, .inl ⟨rfl, heq.symm⟩⟩
    · exact ⟨time, clock, .inr mem⟩

namespace State

variable {state next : State} {load : Load} {followed : List Command}

theorem ramp_mem_of_lastRamp? {commands : List Command} {target : Nat}
    (h : lastRamp? commands = some target) : .ramp target ∈ commands := by
  obtain ⟨command, mem, hcommand⟩ := List.exists_of_findSome?_eq_some h
  rw [List.mem_reverse] at mem
  cases command with
  | ramp other => exact Option.some.inj hcommand ▸ mem
  | _ => cases hcommand

/-- The commands received so far, of those that were to come. -/
def received (upcoming : List (Nat × Command)) (state : State) : List Command :=
  (upcoming.take (upcoming.length - state.upcoming.length)).map (·.2)

/-- The users that are wanted: the last number received, or else that of the schedule. -/
def wanted (setting : Setting) (upcoming : List (Nat × Command)) (load : Load) (state : State) : Nat :=
  (lastRamp? (state.received upcoming)).getD
    (setting.plan.schedule.targetAt (clock setting load state.crowd.now))

/-- Whether the run has been cancelled from outside, if it was to be. -/
def cancelledOutside (cancelAt : Option Nat) (state : State) : Bool :=
  cancelAt.isSome && state.cancelAt.isNone

/-! ### Commands and cancellation -/

/-- **Some commands have been followed.** The number asked for is that of the last of them to name one,
and the run has been cancelled if one of them stopped it, from outside, or by a check. -/
structure Heeds (setting : Setting) (upcoming : List (Nat × Command)) (cancelAt : Option Nat)
    (followed : List Command) (state : State) : Prop where
  commands : upcoming.map (·.2) = followed ++ (state.inbox ++ state.upcoming.map (·.2))
  override : state.crowd.control.override = lastRamp? followed
  outside : state.cancelAt.isSome = true → cancelAt.isSome = true
  cancelled : state.crowd.cancelled = true
    ↔ state.cancelledOutside cancelAt = true ∨ .stop ∈ followed ∨ Failed state.crowd.log
  looks : ∀ time clock target live, (time, .ticked clock target live) ∈ state.crowd.log →
    live = target ∧ (target = setting.plan.schedule.targetAt clock ∨ .ramp target ∈ followed)

namespace Heeds

theorem received_eq (h : Heeds setting upcoming cancelAt followed state) :
    state.received upcoming = followed ++ state.inbox := by
  have hlength := congrArg List.length h.commands
  simp only [List.length_map, List.length_append] at hlength
  rw [received, List.map_take, h.commands, ← List.append_assoc]
  refine List.take_left' ?_
  rw [List.length_append]
  omega

/-- Nothing that has to do with commands or checks has happened. -/
theorem aside (h : Heeds setting upcoming cancelAt followed state)
    (aside : Aside state.crowd next.crowd) (hinbox : next.inbox = state.inbox)
    (hupcoming : next.upcoming = state.upcoming) (hcancel : next.cancelAt = state.cancelAt) :
    Heeds setting upcoming cancelAt followed next where
  commands := by rw [hinbox, hupcoming, h.commands]
  override := by rw [aside.control, h.override]
  outside := by rw [hcancel]; exact h.outside
  cancelled := by
    rw [aside.cancelled, h.cancelled, aside.failed_iff, cancelledOutside, cancelledOutside, hcancel]
  looks := fun time clock target live mem => h.looks time clock target live (aside.mem_of_look rfl mem)

theorem onward {allowed : Phase → Prop} (h : Heeds setting upcoming cancelAt followed state)
    (onward : Onward allowed state next) : Heeds setting upcoming cancelAt followed next := by
  obtain ⟨shownLive, probed, -⟩ := onward
  exact h.aside probed.spared.toAside rfl rfl rfl

theorem enterDrain (h : Heeds setting upcoming cancelAt followed state) (load : Load) :
    Heeds setting upcoming cancelAt followed (state.enterDrain setting load) :=
  h.aside (spared_enterDrain setting load state).toAside rfl rfl rfl

/-- All commands received have been followed. -/
theorem heed (h : Heeds setting upcoming cancelAt followed state) :
    Heeds setting upcoming cancelAt (followed ++ state.inbox) state.heed := by
  obtain ⟨control, heq, hoverride⟩ := state.heed_eq
  rw [heq]
  refine ⟨?_, ?_, h.outside, ?_, ?_⟩
  · rw [h.commands, List.append_assoc]
    rfl
  · rw [lastRamp?_append, ← h.override, ← hoverride]
  -- A command to stop is a cause from now on.
  · have hcause := h.cancelled
    simp only [cancelledOutside, Bool.or_eq_true, decide_eq_true_eq, List.mem_append] at hcause ⊢
    rw [hcause]
    tauto
  · intro time clock target live mem
    obtain ⟨hlive, htarget⟩ := h.looks time clock target live mem
    exact ⟨hlive, htarget.imp_right (List.mem_append_left _)⟩

theorem asked_eq (h : Heeds setting upcoming cancelAt followed state) (load : Load) :
    state.asked setting load = state.wanted setting upcoming load := by
  rw [asked, wanted, h.heed.override, h.received_eq]

/-- The number of users has been brought to what is asked for. -/
theorem scaled (h : Heeds setting upcoming cancelAt followed state) (load : Load) (phase : Phase)
    (shownLive : Nat) : Heeds setting upcoming cancelAt (followed ++ state.inbox)
      { state.heed with crowd := state.scaled setting load, phase, shownLive } := by
  obtain ⟨crowd, hspared, -, -, heq⟩ := exists_scaled setting load state
  have hscaled : Heeds setting upcoming cancelAt (followed ++ state.inbox) { state.heed with crowd } :=
    h.heed.aside hspared.toAside rfl rfl rfl
  rw [heq]
  refine ⟨hscaled.commands, hscaled.override, hscaled.outside, ?_, ?_⟩
  · simp only [failed_note, reduceCtorEq, exists_false, false_or]
    exact hscaled.cancelled
  · intro time clock' target live mem
    rcases List.mem_cons.mp mem with heq | mem
    · simp only [Prod.mk.injEq, Event.ticked.injEq] at heq
      obtain ⟨-, rfl, rfl, rfl⟩ := heq
      refine ⟨rfl, ?_⟩
      rw [h.asked_eq load, wanted, h.received_eq]
      -- What is asked for is either a number received or that of the schedule.
      cases hramp : lastRamp? (followed ++ state.inbox) with
      | none => exact .inl rfl
      | some target => exact .inr (ramp_mem_of_lastRamp? hramp)
    · exact hscaled.looks time clock' target live mem

/-- A check cancels the run if it fails. -/
theorem checked (h : Heeds setting upcoming cancelAt followed state) {time : Nat} {clock : Duration}
    {passed : Bool} (hcontrol : next.crowd.control = state.crowd.control)
    (hcancelled : next.crowd.cancelled = (state.crowd.cancelled || !passed))
    (hlog : next.crowd.log = (time, .checked clock passed) :: state.crowd.log)
    (hinbox : next.inbox = state.inbox) (hupcoming : next.upcoming = state.upcoming)
    (hcancel : next.cancelAt = state.cancelAt) : Heeds setting upcoming cancelAt followed next := by
  refine ⟨?_, ?_, ?_, ?_, ?_⟩
  · rw [hinbox, hupcoming, h.commands]
  · rw [hcontrol, h.override]
  · rw [hcancel]
    exact h.outside
  · have hfailed := failed_note (.checked clock passed) { state.crowd with now := time }
    simp only [note, Event.checked.injEq, exists_eq_left'] at hfailed
    have hcause := h.cancelled
    rw [cancelledOutside] at hcause ⊢
    rw [hcancelled, hlog, hcancel, hfailed, Bool.or_eq_true, hcause, Bool.not_eq_true']
    tauto
  · intro time' clock' target live mem
    rw [hlog] at mem
    exact h.looks time' clock' target live ((List.mem_cons.mp mem).resolve_left (by simp))

/-- The commands received are followed at a look, unless the run had been cancelled before. -/
theorem look (h : Heeds setting upcoming cancelAt followed state) (look : Look setting load state next) :
    ∃ followed, Heeds setting upcoming cancelAt followed next ∧ (followed = state.received upcoming
      ∨ (state.crowd.cancelled = true ∧ next = state.enterDrain setting load)) := by
  rw [h.received_eq]
  cases look with
  | drop cancelled => exact ⟨followed, h.enterDrain load, .inr ⟨cancelled, rfl⟩⟩
  | close running cause => exact ⟨_, h.heed.enterDrain load, .inl rfl⟩
  | @scale running unfinished crowd load' tick hcrowd hpeak =>
      rcases hcrowd with rfl | ⟨time, rfl⟩
      · exact ⟨_, h.scaled load _ _, .inl rfl⟩
      · have hscaled := h.scaled load state.phase (state.scaled setting load).live
        exact ⟨_, hscaled.checked rfl (Bool.or_false _).symm rfl rfl rfl rfl, .inl rfl⟩
  | @fail running unfinished load' time hpeak =>
      have hscaled := h.scaled load state.phase (state.scaled setting load).live
      have hchecked : Heeds setting upcoming cancelAt (followed ++ state.inbox) { state.heed with
          crowd := { (state.scaled setting load).note (.checked time false) with cancelled := true }
          shownLive := (state.scaled setting load).live } :=
        hscaled.checked rfl (Bool.or_true _).symm rfl rfl rfl rfl
      exact ⟨_, hchecked.enterDrain load', .inl rfl⟩
  | overflow running unfinished => exact ⟨_, h.scaled load _ _, .inl rfl⟩

theorem change (h : Heeds setting upcoming cancelAt followed state) (change : Change setting state next) :
    ∃ followed, Heeds setting upcoming cancelAt followed next := by
  cases change with
  | pass later => exact ⟨followed, h.aside ⟨rfl, rfl, .of_log rfl⟩ rfl rfl rfl⟩
  | @deliver time command rest next =>
      refine ⟨followed, ?_, h.override, h.outside, h.cancelled, h.looks⟩
      rw [h.commands, next]
      simp
  | cancel due =>
      refine ⟨followed, h.commands, h.override, nofun, ?_, h.looks⟩
      simp [cancelledOutside, h.outside due]
  | turn mem can turn => exact ⟨followed, h.aside turn.aside rfl rfl rfl⟩
  | begin early onward => exact ⟨followed, h.onward onward⟩
  | look loading look =>
      obtain ⟨followed, hnext, -⟩ := h.look look
      exact ⟨followed, hnext⟩
  | finish draining late onward =>
      have haborted : Heeds setting upcoming cancelAt followed { state with crowd := state.crowd.abort } :=
        h.aside (aside_abort state.crowd) rfl rfl rfl
      exact ⟨followed, haborted.onward onward⟩
  | report restocking onward => exact ⟨followed, h.onward onward⟩

end Heeds

theorem heeds_start (setting : Setting) (upcoming : List (Nat × Command)) (cancelAt : Option Nat) :
    Heeds setting upcoming cancelAt [] (start setting upcoming cancelAt) := by
  refine Heeds.onward ⟨?_, rfl, ?_, ?_, ?_⟩ (onward_start setting upcoming cancelAt)
  · simp [blank]
  · simp [blank]
  · cases cancelAt <;> simp [blank, initial, cancelledOutside, Failed]
  · exact fun _ _ _ _ mem => absurd mem List.not_mem_nil

/-- **In every run some commands have been followed.** -/
theorem heeds_of_reaches (reaches : Reaches setting upcoming cancelAt state) :
    ∃ followed, Heeds setting upcoming cancelAt followed state := by
  induction reaches with
  | refl => exact ⟨[], heeds_start setting upcoming cancelAt⟩
  | tail _ step ih =>
      obtain ⟨followed, h⟩ := ih
      exact h.change step.change

/-! ### The most users at a look -/

/-- Only a look adds a number. -/
theorem Change.exists_look (change : Change setting state next)
    (changed : looks next.crowd.log ≠ looks state.crowd.log) :
    ∃ load tick, state.phase = .loading load tick ∧ Look setting load state next := by
  cases change with
  | pass later => exact absurd rfl changed
  | deliver next => exact absurd rfl changed
  | cancel due => exact absurd rfl changed
  | turn mem can turn => exact absurd turn.aside.looks_eq changed
  | begin early onward =>
      obtain ⟨shownLive, probed, -⟩ := onward
      exact absurd probed.spared.toAside.looks_eq changed
  | look loading look => exact ⟨_, _, loading, look⟩
  | finish draining late onward =>
      obtain ⟨shownLive, probed, -⟩ := onward
      exact absurd ((aside_abort state.crowd).trans probed.spared.toAside).looks_eq changed
  | report restocking onward =>
      obtain ⟨shownLive, probed, -⟩ := onward
      exact absurd probed.spared.toAside.looks_eq changed

/-- A step by which a load ends or its phase changes otherwise is a look. -/
theorem Step.look {tick : Nat} (step : Step setting state next) (loading : state.phase = .loading load tick)
    (changed : next.phase ≠ state.phase) : Look setting load state next := by
  cases step.change with
  | pass later => exact absurd rfl changed
  | deliver next => exact absurd rfl changed
  | cancel due => exact absurd rfl changed
  | turn mem can turn => exact absurd rfl changed
  | begin early onward => simp [loading, Phase.isEarly] at early
  | look loading' look =>
      obtain ⟨rfl, -⟩ := Phase.loading.inj (loading.symm.trans loading')
      exact look
  | finish draining late onward => simp [loading] at draining
  | report restocking onward => simp [loading] at restocking

theorem looks_scaled (setting : Setting) (load : Load) (state : State) :
    looks (state.scaled setting load).log = state.asked setting load :: looks state.crowd.log
      ∧ (state.scaled setting load).live = state.asked setting load := by
  obtain ⟨crowd, hspared, -, hlive, heq⟩ := exists_scaled setting load state
  rw [heq]
  refine ⟨?_, hlive⟩
  rw [← log_heed, ← hspared.toAside.looks_eq]
  rfl

/-- What a look notes: the users asked for, unless it ends the load before it counts them. -/
theorem Look.looks_eq (look : Look setting load state next) :
    (looks next.crowd.log = looks state.crowd.log ∧ ∃ load' deadline,
      next.phase = .draining load' deadline ∧ load'.peak = load.peak)
    ∨ (looks next.crowd.log = state.asked setting load :: looks state.crowd.log
      ∧ state.heed.crowd.cancelled = false
      ∧ ((∃ load' tick, next.phase = .loading load' tick ∧ next.crowd.live = state.asked setting load
            ∧ load'.peak = max load.peak (state.asked setting load))
          ∨ (Failed next.crowd.log ∧ ∃ load' deadline, next.phase = .draining load' deadline
            ∧ load'.peak = max load.peak (state.asked setting load))
          ∨ next.phase = .ended .overflowed)) := by
  obtain ⟨hlooks, hlive⟩ := looks_scaled setting load state
  cases look with
  | drop cancelled =>
      exact .inl ⟨(spared_enterDrain setting load state).toAside.looks_eq, _, _, rfl, rfl⟩
  | close running cause =>
      refine .inl ⟨?_, _, _, rfl, rfl⟩
      rw [(spared_enterDrain setting load state.heed).toAside.looks_eq, log_heed]
  | @scale running unfinished crowd load' tick hcrowd hpeak =>
      rw [hlive] at hpeak
      rcases hcrowd with rfl | ⟨time, rfl⟩
      · exact .inr ⟨hlooks, running, .inl ⟨load', tick, rfl, hlive, hpeak⟩⟩
      · exact .inr ⟨hlooks, running, .inl ⟨load', tick, rfl, hlive, hpeak⟩⟩
  | @fail running unfinished load' time hpeak =>
      rw [hlive] at hpeak
      -- The users are counted before the check, and the end of the load adds no number.
      have haside := (spared_enterDrain setting load' { state.heed with
        crowd := { (state.scaled setting load).note (.checked time false) with cancelled := true }
        shownLive := (state.scaled setting load).live }).toAside
      refine .inr ⟨haside.looks_eq.trans hlooks, running, .inr (.inl ⟨?_, _, _, rfl, hpeak⟩)⟩
      rw [haside.failed_iff]
      exact ⟨_, time, List.mem_cons_self⟩
  | overflow running unfinished => exact .inr ⟨hlooks, running, .inr (.inr rfl)⟩

/-- What a phase knows of the numbers of users at the looks so far. -/
def Tallies (numbers : List Nat) : Phase → Prop
  | .loading load _ | .draining load _ | .restocking load .. => load.peak = numbers.foldr max 0
  | .ended (.reported report) => report.peakUsers = .ofNat (numbers.foldr max 0)
  | .ended _ => True
  | _ => numbers = []

theorem tallies_of_reports {phase : Phase} {numbers : List Nat} (reports : phase.Reports load)
    (hpeak : load.peak = numbers.foldr max 0) : Tallies numbers phase := by
  cases phase with
  | restocking load' lasted active url field exchange due =>
      obtain rfl : load' = load := reports
      exact hpeak
  | ended outcome =>
      cases outcome with
      | reported report => exact reports.1.trans (congrArg UInt64.ofNat hpeak)
      | _ => trivial
  | _ => exact reports.elim

theorem tallies_of_isFresh {phase : Phase} (fresh : phase.IsFresh) : Tallies [] phase := by
  cases phase with
  | loading load tick => exact fresh
  | ended outcome =>
      cases outcome with
      | reported report => cases fresh
      | _ => trivial
  | draining => cases fresh
  | restocking => cases fresh
  | _ => exact rfl

/-- A run that comes nearer to its load has looked at nothing. -/
theorem tallies_of_onward (onward : Onward Phase.IsFresh state next)
    (hnone : looks state.crowd.log = []) : Tallies (looks next.crowd.log) next.phase := by
  obtain ⟨shownLive, probed, fresh⟩ := onward
  simp only [probed.spared.toAside.looks_eq, hnone]
  exact tallies_of_isFresh fresh

theorem Tallies.change (h : Tallies (looks state.crowd.log) state.phase)
    (change : Change setting state next) : Tallies (looks next.crowd.log) next.phase := by
  cases change with
  | pass later => exact h
  | deliver next => exact h
  | cancel due => exact h
  | turn mem can turn => exact turn.aside.looks_eq ▸ h
  | begin early onward =>
      refine tallies_of_onward onward ?_
      cases hphase : state.phase <;> simp_all [Phase.isEarly, Tallies]
  | @look next load tick loading look =>
      rw [loading] at h
      rcases look.looks_eq with ⟨hlooks, load', deadline, hphase, hpeak⟩ | ⟨hlooks, -, hor⟩
      · rw [hlooks, hphase]
        exact hpeak.trans h
      -- The new number comes before the others, as the load has it.
      · have hmax : max load.peak (state.asked setting load)
            = (state.asked setting load :: looks state.crowd.log).foldr max 0 := by
          rw [show load.peak = _ from h, List.foldr_cons, Nat.max_comm]
        rw [hlooks]
        rcases hor with ⟨load', tick', hphase, -, hpeak⟩ | ⟨-, load', deadline, hphase, hpeak⟩ | hphase
        · rw [hphase]
          exact hpeak.trans hmax
        · rw [hphase]
          exact hpeak.trans hmax
        · rw [hphase]
          trivial
  | finish draining late onward =>
      rw [draining] at h
      obtain ⟨shownLive, probed, reports⟩ := onward
      have haside := (aside_abort state.crowd).trans probed.spared.toAside
      simp only [haside.looks_eq]
      exact tallies_of_reports reports h
  | report restocking onward =>
      rw [restocking] at h
      obtain ⟨shownLive, probed, reports⟩ := onward
      simp only [probed.spared.toAside.looks_eq]
      exact tallies_of_reports reports h

theorem tallies_of_reaches (reaches : Reaches setting upcoming cancelAt state) :
    Tallies (looks state.crowd.log) state.phase := by
  induction reaches with
  | refl => exact tallies_of_onward (onward_start setting upcoming cancelAt) rfl
  | tail _ step ih => exact ih.change step.change

/-! ### The end of the load -/

theorem Look.cancelAt_eq (look : Look setting load state next) : next.cancelAt = state.cancelAt := by
  cases look <;> rfl

theorem aborted_enterDrain {load' : Load} {deadline : Nat}
    (h : (state.enterDrain setting load).phase = .draining load' deadline) :
    load'.aborted = (state.enterDrain setting load).crowd.cancelled := by
  obtain ⟨rfl, -⟩ := Phase.draining.inj h
  exact (spared_enterDrain setting load state).cancelled.symm

/-- A load ends as cancelled exactly if the run has been cancelled by then. -/
theorem Look.aborted_eq {load' : Load} {deadline : Nat} (look : Look setting load state next)
    (ends : next.phase = .draining load' deadline) : load'.aborted = next.crowd.cancelled := by
  cases look with
  | drop cancelled => exact aborted_enterDrain ends
  | close running cause => exact aborted_enterDrain ends
  | scale running unfinished tick hcrowd hpeak => cases ends
  | fail running unfinished time hpeak => exact aborted_enterDrain ends
  | overflow running unfinished => cases ends

/-- **What a load ended as is what the report says.** -/
theorem reports_of_draining {load : Load} {deadline : Nat} {final : State}
    (steps : ReflTransGen (Step setting) state final) (draining : state.phase = .draining load deadline) :
    final.phase = .draining load deadline ∨ final.phase.Reports load := by
  -- A run does not come back to a phase that it has left, so the load is never changed again.
  induction steps with
  | refl => exact .inl draining
  | @tail middle final _ step ih =>
      cases step.change with
      | pass later => exact ih
      | deliver next => exact ih
      | cancel due => exact ih
      | turn mem can turn => exact ih
      | begin early onward =>
          rcases ih with hphase | hphase
          · simp [hphase, Phase.isEarly] at early
          · cases hmiddle : middle.phase <;> simp_all [Phase.isEarly, Phase.Reports]
      | look loading look => rcases ih with hphase | hphase <;> simp_all [Phase.Reports]
      | finish draining late onward =>
          rcases ih with hphase | hphase
          · obtain ⟨rfl, -⟩ := Phase.draining.inj (draining.symm.trans hphase)
            obtain ⟨shownLive, probed, reports⟩ := onward
            exact .inr reports
          · simp [draining, Phase.Reports] at hphase
      | report restocking onward =>
          rcases ih with hphase | hphase
          · simp [restocking] at hphase
          · rw [restocking] at hphase
            obtain rfl : _ = load := hphase
            obtain ⟨shownLive, probed, reports⟩ := onward
            exact .inr reports

/-! ### Tracking -/

/-- **The number of users tracks what is wanted.** -/
structure TracksTarget (setting : Setting) (upcoming : List (Nat × Command)) (cancelAt : Option Nat)
    (state : State) : Prop where
  /-- After a look that does not end the load there are as many users as are wanted. -/
  live : ∀ load tick load' tick', state.phase = .loading load tick →
    (state.advance setting).phase = .loading load' tick' →
    (state.advance setting).crowd.live = state.wanted setting upcoming load
      ∧ looks (state.advance setting).crowd.log
        = (state.advance setting).crowd.live :: looks state.crowd.log
  /-- Users are spawned at looks only, and not when the schedule is over or the run cancelled. -/
  spawns : ∀ next, Step setting state next → next.crowd.users.length ≠ state.crowd.users.length →
    ∃ load tick, state.phase = .loading load tick ∧ state.crowd.cancelled = false
      ∧ .stop ∉ state.received upcoming
      ∧ setting.plan.schedule.isFinished (clock setting load state.crowd.now) = false
  /-- No other number counts, but for that of a look after which a check fails. -/
  counted : ∀ next, Step setting state next → looks next.crowd.log = looks state.crowd.log
    ∨ ∃ load tick, state.phase = .loading load tick
      ∧ looks next.crowd.log = state.wanted setting upcoming load :: looks state.crowd.log
      ∧ ((∃ load' tick', next.phase = .loading load' tick')
        ∨ (¬ Failed state.crowd.log ∧ Failed next.crowd.log) ∨ next.phase = .ended .overflowed)
  peak : ∀ report, state.outcome? = some (.reported report) →
    report.peakUsers = .ofNat (peakOf state.crowd.log)
  /-- So the greatest is at most that of the numbers the schedule asked for and those received. -/
  bounded : ∀ bound, (∀ time clock target live, (time, .ticked clock target live) ∈ state.crowd.log →
      setting.plan.schedule.targetAt clock ≤ bound) →
    (∀ target, .ramp target ∈ state.received upcoming → target ≤ bound) → peakOf state.crowd.log ≤ bound
  /-- A run is reported as aborted exactly if it had been cancelled when its load ended. -/
  aborted : ∀ next load tick load' deadline, Step setting state next → state.phase = .loading load tick →
    next.phase = .draining load' deadline →
    ∀ final report, ReflTransGen (Step setting) next final → final.outcome? = some (.reported report) →
    (report.aborted = true ↔ state.cancelledOutside cancelAt = true ∨ .stop ∈ state.received upcoming
      ∨ Failed next.crowd.log)

theorem live_of_look {load' : Load} {tick : Nat} (heeds : Heeds setting upcoming cancelAt followed state)
    (look : Look setting load state next) (hnext : next.phase = .loading load' tick) :
    next.crowd.live = state.wanted setting upcoming load
      ∧ looks next.crowd.log = next.crowd.live :: looks state.crowd.log := by
  rcases look.looks_eq with ⟨-, _, _, hphase, -⟩ | ⟨hlooks, -, hor⟩
  · cases hphase.symm.trans hnext
  · rcases hor with ⟨_, _, -, hlive, -⟩ | ⟨-, _, _, hphase, -⟩ | hphase
    · rw [hlooks, hlive]
      exact ⟨heeds.asked_eq load, rfl⟩
    · cases hphase.symm.trans hnext
    · cases hphase.symm.trans hnext

/-- A run in which the commands received have not stopped it has not been cancelled at all. -/
theorem running_of_heed (heeds : Heeds setting upcoming cancelAt followed state)
    (running : state.heed.crowd.cancelled = false) : state.crowd.cancelled = false
      ∧ .stop ∉ state.received upcoming ∧ ¬ Failed state.crowd.log := by
  rw [cancelled_heed] at running
  obtain ⟨hcancelled, hinbox⟩ : state.crowd.cancelled = false ∧ .stop ∉ state.inbox := by
    simpa using running
  have hcause := mt heeds.cancelled.mpr (by simp [hcancelled])
  rw [heeds.received_eq, List.mem_append]
  tauto

theorem looks_of_step (heeds : Heeds setting upcoming cancelAt followed state)
    (step : Step setting state next) : looks next.crowd.log = looks state.crowd.log
      ∨ ∃ load tick, state.phase = .loading load tick
        ∧ looks next.crowd.log = state.wanted setting upcoming load :: looks state.crowd.log
        ∧ ((∃ load' tick', next.phase = .loading load' tick')
          ∨ (¬ Failed state.crowd.log ∧ Failed next.crowd.log) ∨ next.phase = .ended .overflowed) := by
  by_cases hchanged : looks next.crowd.log = looks state.crowd.log
  · exact .inl hchanged
  obtain ⟨load, tick, loading, look⟩ := step.change.exists_look hchanged
  rcases look.looks_eq with ⟨hsame, -⟩ | ⟨hlooks, running, hor⟩
  · exact absurd hsame hchanged
  refine .inr ⟨load, tick, loading, heeds.asked_eq load ▸ hlooks, ?_⟩
  rcases hor with ⟨load', tick', hphase, -⟩ | ⟨hfailed, -⟩ | hphase
  · exact .inl ⟨load', tick', hphase⟩
  · exact .inr (.inl ⟨(running_of_heed heeds running).2.2, hfailed⟩)
  · exact .inr (.inr hphase)

theorem peakOf_le (heeds : Heeds setting upcoming cancelAt followed state) {bound : Nat}
    (hschedule : ∀ time clock target live, (time, .ticked clock target live) ∈ state.crowd.log →
      setting.plan.schedule.targetAt clock ≤ bound)
    (hramps : ∀ target, .ramp target ∈ state.received upcoming → target ≤ bound) :
    peakOf state.crowd.log ≤ bound := by
  refine List.max_le_of_forall_le (looks state.crowd.log) bound fun n mem => ?_
  obtain ⟨⟨time, event⟩, hentry, hlook⟩ := List.mem_filterMap.mp mem
  cases event with
  | ticked clock target live =>
      obtain ⟨rfl, htarget⟩ := heeds.looks time clock target live hentry
      obtain rfl : live = n := Option.some.inj hlook
      rcases htarget with rfl | hramp
      · exact hschedule time clock _ _ hentry
      · exact hramps _ (heeds.received_eq ▸ List.mem_append_left _ hramp)
  | _ => cases hlook

theorem aborted_iff {load' : Load} {deadline : Nat} (heeds : Heeds setting upcoming cancelAt followed state)
    (look : Look setting load state next) (ends : next.phase = .draining load' deadline) :
    load'.aborted = true ↔ state.cancelledOutside cancelAt = true ∨ .stop ∈ state.received upcoming
      ∨ Failed next.crowd.log := by
  rw [look.aborted_eq ends]
  obtain ⟨followed', heeds', rfl | ⟨hcancelled, rfl⟩⟩ := heeds.look look
  · rw [heeds'.cancelled, cancelledOutside, cancelledOutside, look.cancelAt_eq]
  -- A run that had been cancelled before had a cause then.
  · have haside := (spared_enterDrain setting load state).toAside
    have hcause := heeds.cancelled.mp hcancelled
    rw [haside.cancelled, haside.failed_iff, heeds.received_eq, List.mem_append]
    tauto

/-- **The load of every run tracks its target,** however commands are spread over its looks and whenever
it is cancelled. -/
theorem tracks_target (reaches : Reaches setting upcoming cancelAt state) :
    TracksTarget setting upcoming cancelAt state := by
  obtain ⟨followed, heeds⟩ := heeds_of_reaches reaches
  refine ⟨?_, ?_, fun next step => looks_of_step heeds step, ?_, fun bound => peakOf_le heeds, ?_⟩
  · intro load tick load' tick' loading hnext
    exact live_of_look heeds (look_advance loading) hnext
  · intro next step hne
    obtain ⟨load, tick, loading, -, running, unfinished⟩ := step.change.length_eq.resolve_left hne
    obtain ⟨hcancelled, hstop, -⟩ := running_of_heed heeds running
    exact ⟨load, tick, loading, hcancelled, hstop, unfinished⟩
  · intro report reported
    have htallies := tallies_of_reaches reaches
    rw [phase_of_outcome? reported] at htallies
    exact htallies
  · intro next load tick load' deadline step loading hnext final report steps reported
    have hreports := reports_of_draining steps hnext
    rw [phase_of_outcome? reported] at hreports
    have hreport : report.aborted = load'.aborted := (hreports.resolve_left nofun).2
    rw [hreport]
    exact aborted_iff heeds (step.look loading (by simp [hnext, loading])) hnext

/-! ### Two short runs -/

/-- A run of four hundred milliseconds toward four users; it may end as soon as nothing goes wrong. -/
def climbing (abortOnFail : Bool) : Setting where
  plan := { Plan.ofSchedule "http://t" .couponIssue (.shared 1 ⟨10, 0, 1⟩)
      ⟨[⟨.ofMillis 400, 4⟩], by decide, by decide⟩ with
    abortOnFail
    abortDelaySetting := some .zero
    thresholdInterval := .ofMillis 100
    thresholds := [⟨"errors", "rate>0", ⟨.rate, .greater, .ofNat 0⟩, none⟩] }
  target := fun _ _ => ⟨.ofSeconds 1, .error (.connection "refused")⟩

/-- An operator asks for three users in between. -/
def threeAsked : List (Nat × Command) := [(150_000_000, .ramp 3)]

/-- That run about to look at its schedule after two hundred milliseconds. -/
def halfway : State := (start (climbing false) threeAsked none).run (climbing false) 7

/-- The load that goes on, if one does. -/
def load? (state : State) : Option (Load × Nat) :=
  match state.phase with
  | .loading load tick => some (load, tick)
  | _ => none

theorem phase_of_load? {tick : Nat} (h : state.load? = some (load, tick)) :
    state.phase = .loading load tick := by
  unfold load? at h
  cases hphase : state.phase <;> simp_all

/-- The schedule asks for two users then, but the operator's three are there after the look. -/
theorem three_are_live : Reaches (climbing false) threeAsked none halfway ∧ ∃ load tick load' tick',
    halfway.phase = .loading load tick ∧ (halfway.advance (climbing false)).phase = .loading load' tick'
      ∧ (climbing false).plan.schedule.targetAt (clock (climbing false) load halfway.crowd.now) = 2
      ∧ (halfway.advance (climbing false)).crowd.live = 3
      ∧ TracksTarget (climbing false) threeAsked none halfway := by
  have reaches : Reaches (climbing false) threeAsked none halfway := reaches_run _ threeAsked none 7
  obtain ⟨hload, hnext, hramp⟩ : (halfway.load?.any fun load => decide
        ((climbing false).plan.schedule.targetAt (clock (climbing false) load.1 halfway.crowd.now) = 2))
      = true
      ∧ (halfway.advance (climbing false)).load?.isSome = true
      ∧ lastRamp? (halfway.received threeAsked) = some 3 := by decide +kernel
  obtain ⟨⟨load, tick⟩, hload, htarget⟩ := (Option.any_eq_true ..).mp hload
  obtain ⟨⟨load', tick'⟩, hnext⟩ := Option.isSome_iff_exists.mp hnext
  have htracks := tracks_target reaches
  have hlive := (htracks.live load tick load' tick' (phase_of_load? hload) (phase_of_load? hnext)).1
  rw [wanted, hramp] at hlive
  exact ⟨reaches, load, tick, load', tick', phase_of_load? hload, phase_of_load? hnext,
    of_decide_eq_true htarget, hlive, htracks⟩

/-- The end of that run where a check that fails ends it. -/
def cutShort : State := (start (climbing true) [] none).run (climbing true) 20

/-- **The look after which a check fails counts too.** No user was there at the one look that did not end
the load; the greatest number reported is that of the look that did. -/
theorem failed_look_counts : Reaches (climbing true) [] none cutShort
    ∧ cutShort.crowd.log = [(100_000_000, .dismissed 1), (100_000_000, .closed true),
      (100_000_000, .checked (.ofMillis 100) false), (100_000_000, .ticked (.ofMillis 100) 1 1),
      (100_000_000, .spawned 1), (0, .ticked .zero 0 0)]
    ∧ ∃ report, cutShort.outcome? = some (.reported report) ∧ report.peakUsers = 1 := by
  obtain ⟨hlog, hpeak⟩ : cutShort.crowd.log = [(100_000_000, .dismissed 1), (100_000_000, .closed true),
        (100_000_000, .checked (.ofMillis 100) false), (100_000_000, .ticked (.ofMillis 100) 1 1),
        (100_000_000, .spawned 1), (0, .ticked .zero 0 0)]
      ∧ ((cutShort.outcome?.bind Outcome.report?).any fun report => report.peakUsers == 1) = true := by
    decide +kernel
  obtain ⟨report, hreport, hpeak⟩ := (Option.any_eq_true ..).mp hpeak
  exact ⟨reaches_run _ [] none 20, hlog, report, Outcome.eq_of_report? hreport, by simpa using hpeak⟩

end State

end LoadTest.Simulation
