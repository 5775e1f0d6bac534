import LoadTest.Proofs.Simulation.EarlyEnd
import LoadTest.Proofs.Simulation.Startup
import LoadTest.Proofs.Simulation.Tracking

/-!
# LoadTest.Proofs.Simulation.Timetable

When the thresholds are checked during a run. **A check is made at a look at the schedule, not before its delay on
the clock of the schedule, and an interval after the one before it;** the first that fails is the last, and ends the
load. What a look adds to the log is read off the cases of `State.Visit`, and that the log of every run was made
of such additions (`Timed`) is the invariant.
-/

namespace LoadTest

open Threshold

/-- The criteria that are checked during a run: those of the plan but throughput and lower bounds of a total. -/
theorem Plan.mem_abortThresholds_iff {plan : Plan} {spec : Spec} : spec ∈ plan.abortThresholds
    ↔ spec ∈ plan.thresholds ∧ ∃ kind, plan.scenario.kindOf? spec.metric = some kind
      ∧ (kind = .counter →
        spec.expression.aggregate ≠ .rate ∧ spec.expression.comparison ∈ [.less, .atMost]) := by
  rw [abortThresholds, List.mem_filter]
  cases plan.scenario.kindOf? spec.metric with
  | none => simp
  | some kind =>
      cases hcomparison : spec.expression.comparison <;>
        simp [Spec.needsFullRun, hcomparison, imp_iff_not_or]

namespace Simulation

open Crowd Relation

variable {setting : Setting} {upcoming : List (Nat × Command)} {cancelAt : Option Nat}

/-! ### What happens under load only -/

/-- Whether an event happens only while the load goes on: a user is spawned, the schedule is looked at, or the
thresholds are checked. -/
def Event.isOfLoad : Event → Bool
  | .spawned _ | .ticked .. | .checked .. => true
  | _ => false

/-- Whether the load is over, or will never be. -/
def Phase.isClosed : Phase → Bool
  | .draining .. | .restocking .. | .ended _ => true
  | _ => false

theorem Phase.Reports.isClosed {load : Load} {phase : Phase} (h : phase.Reports load) : phase.isClosed = true := by
  cases phase <;> simp_all [Phase.Reports, Phase.isClosed]

theorem Event.isCheck_of_isOfLoad {event : Event} (h : event.isOfLoad = false) : event.isCheck = false := by
  cases event <;> simp_all [isOfLoad, isCheck]

namespace Crowd

variable {crowd after : Crowd} {user : User}

/-- The checks of a log stay the same where only other events are added. -/
theorem mem_checked_append {events log : List (Nat × Event)} (plain : ∀ entry ∈ events, entry.2.isCheck = false)
    {time : Nat} {clock : Duration} {passed : Bool} :
    (time, .checked clock passed) ∈ events ++ log ↔ (time, .checked clock passed) ∈ log := by
  rw [List.mem_append]
  refine ⟨fun mem => mem.resolve_left ?_, .inr⟩
  intro hevent
  simpa [Event.isCheck] using plain _ hevent

/-- A change in which nothing of a load happens. -/
abbrev Calm (before after : Crowd) : Prop := NotesOnly (fun event => event.isOfLoad = false) before after

theorem Calm.mem_checked (calm : Calm crowd after) (time : Nat) (clock : Duration) (passed : Bool) :
    (time, .checked clock passed) ∈ after.log ↔ (time, .checked clock passed) ∈ crowd.log := by
  obtain ⟨events, hlog, hcalm⟩ := calm
  rw [hlog]
  exact mem_checked_append fun entry mem => Event.isCheck_of_isOfLoad (hcalm entry mem)

theorem Turn.calm (turn : Turn setting crowd user after) : Calm crowd after := by
  cases turn with
  | halt quiet cause => exact .of_log rfl
  | send quiet untold running unpaused => exact .single rfl rfl
  | record sending arrived => exact .single rfl rfl

theorem Probed.calm (probed : Probed crowd after) : Calm crowd after := by
  obtain ⟨sent, hprobes⟩ := probed
  refine ⟨_, rfl, ?_⟩
  intro entry mem
  obtain ⟨request, heq⟩ := hprobes entry mem
  rw [heq]
  rfl

theorem calm_dismissMany (n : Nat) (crowd : Crowd) : Calm crowd (dismissMany n crowd) := by
  induction n generalizing crowd with
  | zero => exact .of_log rfl
  | succ n ih =>
      have hdismiss : Calm crowd crowd.dismiss := by
        unfold dismiss
        cases crowd.active with
        | nil => exact .of_log rfl
        | cons id active => exact .single rfl rfl
      exact hdismiss.trans (ih crowd.dismiss)

/-- Nobody is spawned by asking for no users. -/
theorem calm_scaleTo_zero (setting : Setting) (crowd : Crowd) : Calm crowd (crowd.scaleTo setting 0) := by
  rw [scaleTo, Nat.zero_sub]
  exact calm_dismissMany _ crowd

end Crowd

namespace State

variable {state next : State} {load : Load} {tick : Nat}

/-- At the end of the load users are told to stop, and nothing else. -/
theorem log_enterDrain (setting : Setting) (load : Load) (state : State) : ∃ events,
    (state.enterDrain setting load).crowd.log
      = events ++ (state.crowd.now, .closed state.crowd.cancelled) :: state.crowd.log
    ∧ ∀ entry ∈ events, entry.2.isOfLoad = false :=
  calm_scaleTo_zero setting (state.crowd.note (.closed state.crowd.cancelled))

theorem calm_enterDrain (setting : Setting) (load : Load) (state : State) :
    Calm state.crowd (state.enterDrain setting load).crowd := by
  have hclosed : Calm state.crowd (state.crowd.note (.closed state.crowd.cancelled)) := .single rfl rfl
  exact hclosed.trans (calm_scaleTo_zero setting _)

/-! ### Looks and checks -/

/-- A look takes no time. -/
theorem now_scaled (setting : Setting) (load : Load) (state : State) :
    (state.scaled setting load).now = state.crowd.now := by
  have hreap (crowd : Crowd) : crowd.reap.now = crowd.now := by
    unfold Crowd.reap
    simp only [foldl_note_reaped]
  have hscale := (now_scaleTo setting state.heed.crowd.reap (state.asked setting load)).1
  rw [hreap, now_heed] at hscale
  exact hscale

/-- The last thing noted of a look is that it was made; no check comes before that. -/
theorem log_scaled (setting : Setting) (load : Load) (state : State) : ∃ events,
    (state.scaled setting load).log = (state.crowd.now, .ticked (clock setting load state.crowd.now)
      (state.asked setting load) (state.asked setting load)) :: (events ++ state.crowd.log)
    ∧ ∀ entry ∈ events, entry.2.isCheck = false := by
  obtain ⟨crowd, hspared, -, -, heq⟩ := exists_scaled setting load state
  obtain ⟨events, hlog, hquiet⟩ := hspared.unlooked
  have hnow : crowd.now = state.crowd.now := by
    rw [← now_scaled setting load state, heq]
    rfl
  refine ⟨events, ?_, fun entry mem => (hquiet entry mem).2⟩
  rw [heq, note, hlog, log_heed, hnow]

/-- **What a visit to the schedule comes to:** the load ends without a check, or goes on without one, or a check
is made that passes or fails. -/
inductive Visit (setting : Setting) (load : Load) (state next : State) : Prop where
  | leave {load' : Load} {deadline : Nat} (phase : next.phase = .draining load' deadline)
      (cause : state.crowd.cancelled = true ∨ .stop ∈ state.inbox
        ∨ setting.plan.schedule.isFinished (clock setting load state.crowd.now) = true)
      (calm : Calm state.crowd next.crowd)
  | go {load' : Load} {tick : Nat} (phase : next.phase = .loading load' tick)
      (kept : load'.start = load.start ∧ load'.lastCheck = load.lastCheck)
      (undue : checkIsDue setting load (clock setting load state.crowd.now) state.crowd.now = false)
      (crowd : next.crowd = state.scaled setting load)
  | pass {load' : Load} {tick : Nat} (phase : next.phase = .loading load' tick)
      (kept : load'.start = load.start ∧ load'.lastCheck = state.crowd.now)
      (due : checkIsDue setting load (clock setting load state.crowd.now) state.crowd.now = true)
      (crowd : next.crowd
        = (state.scaled setting load).note (.checked (clock setting load state.crowd.now) true))
  | fail {load' : Load} {deadline : Nat} (phase : next.phase = .draining load' deadline)
      (due : checkIsDue setting load (clock setting load state.crowd.now) state.crowd.now = true)
      (log : ∃ events, next.crowd.log = events ++ (state.crowd.now, .closed true)
          :: (state.crowd.now, .checked (clock setting load state.crowd.now) false)
          :: (state.scaled setting load).log
        ∧ ∀ entry ∈ events, entry.2.isOfLoad = false)
  /-- What was recorded cannot be summed up. -/
  | overflow (phase : next.phase = .ended .overflowed) (crowd : next.crowd = state.scaled setting load)

/-- A check that is due is made, and decides whether the load goes on. -/
theorem visit_checkThresholds {load' : Load} (start : load'.start = load.start)
    (due : checkIsDue setting load (clock setting load state.crowd.now) state.crowd.now = true)
    (hcrowd : next.crowd = state.scaled setting load) (tick : Nat) :
    Visit setting load state
      (next.checkThresholds setting load' (clock setting load state.crowd.now) tick) := by
  have hnow : next.crowd.now = state.crowd.now := hcrowd ▸ now_scaled setting load state
  unfold checkThresholds
  cases next.crowd.sink.snapshot? with
  | none => exact .overflow rfl hcrowd
  | some snapshot =>
      simp only
      cases (Threshold.evaluate setting.plan.abortThresholds snapshot _).passed with
      | true => exact .pass rfl ⟨start, hnow⟩ due (congrArg (Crowd.note · _) hcrowd)
      | false =>
          refine .fail rfl due ?_
          let failed := { next.crowd.note (.checked (clock setting load state.crowd.now) false) with
            cancelled := true }
          obtain ⟨events, hlog, hcalm⟩ := log_enterDrain setting { load' with lastCheck := next.crowd.now }
            { next with crowd := failed }
          have hnoted : (failed.now, Event.closed failed.cancelled) :: failed.log = (next.crowd.now, .closed true)
              :: (next.crowd.now, .checked (clock setting load state.crowd.now) false) :: next.crowd.log := rfl
          rw [hnow, hcrowd] at hnoted
          exact ⟨events, hlog.trans (congrArg (events ++ ·) hnoted), hcalm⟩

theorem visit_advance (loading : state.phase = .loading load tick) :
    Visit setting load state (state.advance setting) := by
  have hheed : Calm state.crowd (state.heed.enterDrain setting load).crowd := by
    have hlog : Calm state.crowd state.heed.crowd := .of_log (log_heed state)
    exact hlog.trans (calm_enterDrain setting load state.heed)
  rw [advance_eq loading]
  split
  · next hcancelled => exact .leave rfl (.inl hcancelled) (calm_enterDrain setting load state)
  · next hrunning =>
    split
    · next hstopped =>
      rw [cancelled_heed] at hstopped
      exact .leave rfl (.inr (.inl (by simpa [hrunning] using hstopped))) hheed
    · split
      · next hfinished => exact .leave rfl (.inr (.inr hfinished)) hheed
      · simp only
        split
        · next hdue =>
          refine visit_checkThresholds ?_ hdue ?_ _
          · rfl
          · rfl
        · next hundue => exact .go rfl ⟨rfl, rfl⟩ (Bool.eq_false_iff.mpr hundue) rfl

/-! ### Steps by phase -/

/-- A step under load is a visit to the schedule, or leaves the load as it is. -/
theorem Step.visit (step : Step setting state next) (loading : state.phase = .loading load tick) :
    (next.phase = state.phase ∧ Calm state.crowd next.crowd ∧ state.crowd.now ≤ next.crowd.now)
      ∨ Visit setting load state next := by
  cases step with
  | pass later => exact .inl ⟨rfl, .of_log rfl, later⟩
  | @act action enabled =>
      cases action with
      | deliver =>
          left
          cases hupcoming : state.upcoming <;> simp only [perform, hupcoming] <;>
            exact ⟨trivial, .of_log rfl, Nat.le_refl _⟩
      | cancel => exact .inl ⟨rfl, .of_log rfl, Nat.le_refl _⟩
      | advance => exact .inr (visit_advance loading)
      | user user =>
          have hturn : Turn setting state.crowd user (state.crowd.stepUser setting user) :=
            turn_stepUser (isEnabled_user_iff.mp enabled).2
          exact .inl ⟨rfl, hturn.calm, hturn.now_eq.ge⟩
      | wait => simp [isEnabled] at enabled

theorem Onward.calm {allowed : Phase → Prop} (onward : Onward allowed state next) :
    Calm state.crowd next.crowd := by
  obtain ⟨shownLive, probed, -⟩ := onward
  exact probed.calm

/-- Before the load and after it nothing of a load happens. -/
theorem Step.calm (step : Step setting state next) (idle : state.phase.isEarly = true ∨ state.phase.isClosed = true) :
    Calm state.crowd next.crowd := by
  cases step.change with
  | pass later => exact .of_log rfl
  | deliver next => exact .of_log rfl
  | cancel due => exact .of_log rfl
  | turn mem can turn => exact turn.calm
  | begin early onward => exact onward.calm
  | look loading look => simp [loading, Phase.isEarly, Phase.isClosed] at idle
  | finish draining late onward => exact (notes_abort (fun _ => rfl) state.crowd).trans onward.calm
  | report restocking onward => exact onward.calm

/-- A load that is over does not begin again. -/
theorem Step.isClosed (step : Step setting state next) (late : state.phase.isClosed = true) :
    next.phase.isClosed = true := by
  cases step.change with
  | pass later => exact late
  | deliver next => exact late
  | cancel due => exact late
  | turn mem can turn => exact late
  | begin early onward => cases hphase : state.phase <;> simp_all [Phase.isEarly, Phase.isClosed]
  | look loading look => simp [loading, Phase.isClosed] at late
  | finish draining late onward =>
      obtain ⟨shownLive, probed, reports⟩ := onward
      exact reports.isClosed
  | report restocking onward =>
      obtain ⟨shownLive, probed, reports⟩ := onward
      exact reports.isClosed

theorem Approach.begins (approach : Approach setting state next) : next.phase.isEarly = true
    ∨ ∃ stockBefore, next = state.enterLoad stockBefore := by
  cases approach with
  | warm due probed => exact .inl rfl
  | stock set due => exact .inl rfl
  | load unset => exact .inr ⟨none, rfl⟩

/-- Before the load a run goes on to something else before the load, begins it, or ends. -/
theorem Step.begins (step : Step setting state next) (early : state.phase.isEarly = true) :
    next.phase.isEarly = true ∨ next.phase.isClosed = true ∨ ∃ stockBefore, next = state.enterLoad stockBefore := by
  rcases step.course with still | passage
  · exact .inl (still.phase ▸ early)
  cases passage with
  | refuse checking unhealthy => exact .inr (.inl rfl)
  | approve checking healthy approach => exact approach.begins.imp_right .inr
  | warmed warming approach => exact approach.begins.imp_right .inr
  | stocked stocking => exact .inr (.inr ⟨_, rfl⟩)
  | look loading kept unprobed => simp [loading, Phase.isEarly] at early
  | finish draining => simp [draining, Phase.isEarly] at early
  | report restocking => simp [restocking, Phase.isEarly] at early

end State

/-! ### The timetable of a log -/

/-- **A check is due** at a time, after what a log tells of a load that has begun. -/
structure Due (setting : Setting) (begun : Nat) (log : List (Nat × Event)) (time : Nat) (clock : Duration) :
    Prop where
  asked : setting.plan.abortOnFail = true ∧ setting.plan.abortThresholds ≠ []
  /-- The clock is that of the schedule, without pauses. -/
  unpaused : clock = .ofNanosCapped (time - begun - setting.pausedTime time)
  delay : setting.plan.abortDelay ≤ clock
  /-- The schedule has just been looked at. -/
  tick : ∃ target live earlier, log = (time, .ticked clock target live) :: earlier
  first : begun + setting.plan.thresholdInterval.nanos ≤ time
  apart : ∀ time' clock' passed, (time', .checked clock' passed) ∈ log →
    time' + setting.plan.thresholdInterval.nanos ≤ time
  unfailed : ¬ Failed log

/-- **A log with its checks at their times:** each was due, and the first that failed is followed by the end of
the load and by nothing that happens under load. -/
inductive Timed (setting : Setting) (begun : Nat) : List (Nat × Event) → Prop where
  | nil : Timed setting begun []
  | note {log : List (Nat × Event)} {entry : Nat × Event} (timed : Timed setting begun log)
      (plain : entry.2.isCheck = false) (calm : Failed log → entry.2.isOfLoad = false) :
      Timed setting begun (entry :: log)
  | pass {log : List (Nat × Event)} {time : Nat} {clock : Duration} (timed : Timed setting begun log)
      (due : Due setting begun log time clock) : Timed setting begun ((time, .checked clock true) :: log)
  | fail {log : List (Nat × Event)} {time : Nat} {clock : Duration} (timed : Timed setting begun log)
      (due : Due setting begun log time clock) :
      Timed setting begun ((time, .closed true) :: (time, .checked clock false) :: log)

namespace Timed

variable {begun time : Nat} {clock : Duration} {passed : Bool} {log later earlier : List (Nat × Event)}

theorem failed_of_eq (hlog : log = later ++ (time, .checked clock false) :: earlier) : Failed log :=
  ⟨time, clock, hlog ▸ List.mem_append_right _ List.mem_cons_self⟩

theorem append (h : Timed setting begun log) {events : List (Nat × Event)}
    (plain : ∀ entry ∈ events, entry.2.isCheck = false)
    (calm : Failed log → ∀ entry ∈ events, entry.2.isOfLoad = false) : Timed setting begun (events ++ log) := by
  induction events with
  | nil => exact h
  | cons entry events ih =>
      obtain ⟨hplain, hrest⟩ := List.forall_mem_cons.mp plain
      refine .note (ih hrest fun hfailed => (List.forall_mem_cons.mp (calm hfailed)).2) hplain ?_
      intro hfailed
      exact calm (hfailed.of_append hrest) entry List.mem_cons_self

theorem calm {crowd after : Crowd} (h : Timed setting begun crowd.log) (calm : Calm crowd after) :
    Timed setting begun after.log := by
  obtain ⟨events, hlog, hcalm⟩ := calm
  rw [hlog]
  exact h.append (fun entry mem => Event.isCheck_of_isOfLoad (hcalm entry mem)) fun _ => hcalm

/-- Every check was due after what stands before it. -/
theorem due (h : Timed setting begun log) (hlog : log = later ++ (time, .checked clock passed) :: earlier) :
    Due setting begun earlier time clock := by
  induction h generalizing later with
  | nil => exact absurd hlog.symm (List.append_ne_nil_of_right_ne_nil _ (List.cons_ne_nil _ _))
  | @note log entry timed plain calm ih =>
      cases later with
      | nil =>
          obtain ⟨rfl, -⟩ := List.cons.inj hlog
          simp [Event.isCheck] at plain
      | cons first later => exact ih (List.cons.inj hlog).2
  | @pass log time' clock' timed due ih =>
      cases later with
      | nil =>
          obtain ⟨heq, rfl⟩ := List.cons.inj hlog
          obtain ⟨rfl, rfl, -⟩ : time' = time ∧ clock' = clock ∧ true = passed := by simpa using heq
          exact due
      | cons first later => exact ih (List.cons.inj hlog).2
  | @fail log time' clock' timed due ih =>
      rcases later with - | ⟨first, - | ⟨second, later⟩⟩
      · simp at hlog
      · obtain ⟨heq, rfl⟩ := List.cons.inj (List.cons.inj hlog).2
        obtain ⟨rfl, rfl, -⟩ : time' = time ∧ clock' = clock ∧ false = passed := by simpa using heq
        exact due
      · exact ih (List.cons.inj (List.cons.inj hlog).2).2

/-- What stands after a check that failed. -/
theorem ends (h : Timed setting begun log) (hlog : log = later ++ (time, .checked clock false) :: earlier) :
    (∃ rest, later = rest ++ [(time, .closed true)]) ∧ ∀ entry ∈ later, entry.2.isOfLoad = false := by
  induction h generalizing later with
  | nil => exact absurd hlog.symm (List.append_ne_nil_of_right_ne_nil _ (List.cons_ne_nil _ _))
  | @note log entry timed plain calm ih =>
      cases later with
      | nil =>
          obtain ⟨rfl, -⟩ := List.cons.inj hlog
          simp [Event.isCheck] at plain
      | cons first later =>
          obtain ⟨rfl, hrest⟩ := List.cons.inj hlog
          obtain ⟨⟨rest, rfl⟩, hcalm⟩ := ih hrest
          exact ⟨⟨entry :: rest, rfl⟩, List.forall_mem_cons.mpr ⟨calm (failed_of_eq hrest), hcalm⟩⟩
  -- A check that failed before another would have kept that one from being due.
  | pass timed due ih =>
      cases later with
      | nil => simp at hlog
      | cons first later => exact absurd (failed_of_eq (List.cons.inj hlog).2) due.unfailed
  | @fail log time' clock' timed due ih =>
      rcases later with - | ⟨first, - | ⟨second, later⟩⟩
      · simp at hlog
      · obtain ⟨rfl, hrest⟩ := List.cons.inj hlog
        obtain ⟨rfl, -⟩ : time' = time ∧ clock' = clock := by simpa using (List.cons.inj hrest).1
        exact ⟨⟨[], rfl⟩, List.forall_mem_singleton.mpr rfl⟩
      · exact absurd (failed_of_eq (List.cons.inj (List.cons.inj hlog).2).2) due.unfailed

end Timed

/-! ### Runs -/

/-- **A load that goes on** knows when it began and when the last check was made, and none has failed. -/
structure Going (begun : Nat) (load : Load) (crowd : Crowd) : Prop where
  start : load.start = begun
  last : load.lastCheck = begun ∨ ∃ clock, (load.lastCheck, .checked clock true) ∈ crowd.log
  since : begun ≤ load.lastCheck
  past : load.lastCheck ≤ crowd.now
  checks : ∀ time clock passed, (time, .checked clock passed) ∈ crowd.log → time ≤ load.lastCheck
  unfailed : ¬ Failed crowd.log

/-- A load goes on as long as no check is made. -/
theorem Going.kept {begun : Nat} {load load' : Load} {crowd after : Crowd} (going : Going begun load crowd)
    (kept : load'.start = load.start ∧ load'.lastCheck = load.lastCheck)
    (hchecks : ∀ time clock passed,
      (time, .checked clock passed) ∈ after.log ↔ (time, .checked clock passed) ∈ crowd.log)
    (later : crowd.now ≤ after.now) : Going begun load' after where
  start := kept.1.trans going.start
  last := by simpa only [hchecks, kept.2] using going.last
  since := kept.2 ▸ going.since
  past := kept.2 ▸ going.past.trans later
  checks := by simpa only [hchecks, kept.2] using going.checks
  unfailed := by simpa only [Failed, hchecks] using going.unfailed

/-- A check that passes is the last one from then on. -/
theorem Going.check {begun : Nat} {load load' : Load} {crowd : Crowd} (going : Going begun load crowd)
    (kept : load'.start = load.start ∧ load'.lastCheck = crowd.now) (clock : Duration) :
    Going begun load' (crowd.note (.checked clock true)) where
  start := kept.1.trans going.start
  last := .inr ⟨clock, kept.2 ▸ List.mem_cons_self⟩
  since := kept.2 ▸ going.since.trans going.past
  past := kept.2.le
  checks := by
    intro time clock' passed mem
    rw [kept.2]
    rcases List.mem_cons.mp mem with heq | mem
    · exact (congrArg Prod.fst heq).le
    · exact (going.checks time clock' passed mem).trans going.past
  unfailed := by
    simpa only [failed_note, Event.checked.injEq, Bool.true_eq_false, and_false, exists_false, false_or]
      using going.unfailed

namespace State

variable {state next : State} {load : Load} {tick begun : Nat}

/-- Nothing is checked in the course of a look itself. -/
theorem mem_log_scaled {time : Nat} {clock : Duration} {passed : Bool} :
    (time, .checked clock passed) ∈ (state.scaled setting load).log
      ↔ (time, .checked clock passed) ∈ state.crowd.log := by
  obtain ⟨events, hlog, hplain⟩ := log_scaled setting load state
  rw [hlog, ← List.cons_append]
  exact mem_checked_append (List.forall_mem_cons.mpr ⟨rfl, hplain⟩)

theorem failed_scaled : Failed (state.scaled setting load).log ↔ Failed state.crowd.log := by
  simp only [Failed, mem_log_scaled]

theorem timed_scaled (h : Timed setting begun state.crowd.log) (unfailed : ¬ Failed state.crowd.log) :
    Timed setting begun (state.scaled setting load).log := by
  obtain ⟨events, hlog, hplain⟩ := log_scaled setting load state
  rw [hlog]
  have hevents : Timed setting begun (events ++ state.crowd.log) :=
    h.append hplain fun hfailed => absurd hfailed unfailed
  exact hevents.note rfl fun hfailed => absurd (hfailed.of_append hplain) unfailed

theorem due_scaled (going : Going begun load state.crowd)
    (due : checkIsDue setting load (clock setting load state.crowd.now) state.crowd.now = true) :
    Due setting begun (state.scaled setting load).log state.crowd.now (clock setting load state.crowd.now) := by
  simp only [checkIsDue, Bool.and_eq_true, decide_eq_true_eq, Bool.not_eq_true', List.isEmpty_eq_false_iff] at due
  obtain ⟨⟨⟨hset, hsome⟩, hdelay⟩, hinterval⟩ := due
  obtain ⟨events, hlog, -⟩ := log_scaled setting load state
  have hpast := going.past
  have hsince := going.since
  refine {
    asked := ⟨hset, hsome⟩
    unpaused := by rw [State.clock, going.start]
    delay := hdelay
    tick := ⟨_, _, _, hlog⟩
    first := by omega
    apart := ?_
    unfailed := mt failed_scaled.mp going.unfailed }
  intro time' clock' passed mem
  have hlast := going.checks time' clock' passed (mem_log_scaled.mp mem)
  omega

/-- A load that has begun goes on, with its checks at their times, or is over. -/
structure Paced (setting : Setting) (begun : Nat) (state : State) : Prop where
  timed : Timed setting begun state.crowd.log
  phase : state.phase.isClosed = true ∨ ∃ load tick, state.phase = .loading load tick ∧ Going begun load state.crowd

/-- **A step keeps the timetable.** -/
theorem Paced.step (h : Paced setting begun state) (step : Step setting state next) : Paced setting begun next := by
  obtain ⟨timed, late | ⟨load, tick, loading, going⟩⟩ := h
  · exact ⟨timed.calm (step.calm (.inr late)), .inl (step.isClosed late)⟩
  have hscaled : Timed setting begun (state.scaled setting load).log := timed_scaled timed going.unfailed
  have hnow := now_scaled setting load state
  rcases step.visit loading with ⟨hphase, calm, later⟩ | visit
  · have hgoing : Going begun load next.crowd := going.kept ⟨rfl, rfl⟩ calm.mem_checked later
    exact ⟨timed.calm calm, .inr ⟨load, tick, hphase.trans loading, hgoing⟩⟩
  cases visit with
  | leave phase cause calm => exact ⟨timed.calm calm, .inl (by rw [phase]; rfl)⟩
  | go phase kept undue crowd =>
      have hgoing := going.kept kept (fun _ _ _ => mem_log_scaled) hnow.ge
      exact ⟨crowd ▸ hscaled, .inr ⟨_, _, phase, crowd ▸ hgoing⟩⟩
  | pass phase kept due crowd =>
      have hgoing : Going begun load (state.scaled setting load) :=
        going.kept ⟨rfl, rfl⟩ (fun _ _ _ => mem_log_scaled) hnow.ge
      refine ⟨?_, .inr ⟨_, _, phase, crowd ▸ hgoing.check (hnow.symm ▸ kept) _⟩⟩
      rw [crowd, note, hnow]
      exact hscaled.pass (due_scaled going due)
  | fail phase due log =>
      obtain ⟨events, hlog, hcalm⟩ := log
      have hfail := hscaled.fail (due_scaled going due)
      refine ⟨?_, .inl (by rw [phase]; rfl)⟩
      rw [hlog]
      exact hfail.append (fun entry mem => Event.isCheck_of_isOfLoad (hcalm entry mem)) fun _ => hcalm
  | overflow phase crowd => exact ⟨crowd ▸ hscaled, .inl (by rw [phase]; rfl)⟩

/-- Nothing of a load has happened. -/
structure Unbegun (state : State) : Prop where
  idle : state.phase.isEarly = true ∨ state.phase.isClosed = true
  calm : ∀ entry ∈ state.crowd.log, entry.2.isOfLoad = false

/-- **A load has begun** at a time, when nothing of it had happened before, and has led to a state. -/
def BeganAt (setting : Setting) (upcoming : List (Nat × Command)) (cancelAt : Option Nat) (begun : Nat)
    (state : State) : Prop :=
  ∃ (before : State) (stockBefore : Option Int), before.crowd.now = begun
    ∧ (∀ entry ∈ before.crowd.log, entry.2.isOfLoad = false)
    ∧ Reaches setting upcoming cancelAt (before.enterLoad stockBefore)
    ∧ ReflTransGen (Step setting) (before.enterLoad stockBefore) state

theorem paced_of_beganAt (began : BeganAt setting upcoming cancelAt begun state) : Paced setting begun state := by
  obtain ⟨before, stockBefore, hbegun, hcalm, -, steps⟩ := began
  induction steps with
  | refl =>
      have hplain : ∀ entry ∈ before.crowd.log, entry.2.isCheck = false := fun entry mem =>
        Event.isCheck_of_isOfLoad (hcalm entry mem)
      have htimed : Timed setting begun (before.crowd.log ++ []) := Timed.nil.append hplain fun _ => hcalm
      rw [List.append_nil] at htimed
      refine ⟨htimed, .inr ⟨_, _, rfl, hbegun, .inl hbegun, hbegun.ge, Nat.le_refl _, ?_, ?_⟩⟩
      · intro time clock passed mem
        simpa [Event.isCheck] using hplain _ mem
      · intro hfailed
        obtain ⟨time, clock, mem⟩ := hfailed
        simpa [Event.isCheck] using hplain _ mem
  | tail _ step ih => exact ih.step step

theorem BeganAt.step (began : BeganAt setting upcoming cancelAt begun state) (step : Step setting state next) :
    BeganAt setting upcoming cancelAt begun next := by
  obtain ⟨before, stockBefore, hbegun, hcalm, reaches, steps⟩ := began
  exact ⟨before, stockBefore, hbegun, hcalm, reaches, steps.tail step⟩

/-- A run starts with something else before the load, or begins it. -/
theorem start_begins (setting : Setting) (upcoming : List (Nat × Command)) (cancelAt : Option Nat) :
    (start setting upcoming cancelAt).phase.isEarly = true ∨ ∃ stockBefore,
      start setting upcoming cancelAt = (blank setting upcoming cancelAt).enterLoad stockBefore := by
  rw [start_eq, enterCheck]
  cases setting.plan.healthCheck with
  | none => exact (approach_enterWarmup setting _).begins
  | some path => exact .inl rfl

/-- A run whose load has not begun may begin it. -/
theorem unbegun_or_beganAt (reaches : Reaches setting upcoming cancelAt state) :
    Unbegun state ∨ ∃ begun, BeganAt setting upcoming cancelAt begun state := by
  induction reaches with
  | refl =>
      obtain ⟨events, hlog, hevents⟩ := (onward_start setting upcoming cancelAt).calm
      rcases start_begins setting upcoming cancelAt with early | ⟨stockBefore, heq⟩
      · refine .inl ⟨.inl early, ?_⟩
        rw [hlog]
        exact List.forall_mem_append.mpr ⟨hevents, List.forall_mem_nil _⟩
      · refine .inr ⟨_, blank setting upcoming cancelAt, stockBefore, rfl, List.forall_mem_nil _, ?_, ?_⟩
        · exact heq ▸ .refl
        · exact heq ▸ .refl
  | @tail state next reaches step ih =>
      rcases ih with ⟨idle, hcalm⟩ | ⟨begun, began⟩
      · obtain ⟨events, hlog, hevents⟩ := step.calm idle
        have hnext : ∀ entry ∈ next.crowd.log, entry.2.isOfLoad = false := by
          rw [hlog]
          exact List.forall_mem_append.mpr ⟨hevents, hcalm⟩
        rcases idle with early | late
        · rcases step.begins early with early | late | ⟨stockBefore, rfl⟩
          · exact .inl ⟨.inl early, hnext⟩
          · exact .inl ⟨.inr late, hnext⟩
          · exact .inr ⟨_, state, stockBefore, rfl, hcalm, reaches.tail step, .refl⟩
        · exact .inl ⟨.inr (step.isClosed late), hnext⟩
      · exact .inr ⟨begun, began.step step⟩

/-! ### The timetable of a run -/

/-- **What is true of a check in the log of a run;** `earlier` is what had happened before it, and `later` what
happened after it. -/
structure OnTime (setting : Setting) (upcoming : List (Nat × Command)) (cancelAt : Option Nat) (state : State)
    (later earlier : List (Nat × Event)) (time : Nat) (clock : Duration) (passed : Bool) : Prop where
  asked : setting.plan.abortOnFail = true ∧ setting.plan.abortThresholds ≠ []
  /-- It was made as the schedule was looked at, and not before its delay. -/
  tick : ∃ target live before, earlier = (time, .ticked clock target live) :: before
  delay : setting.plan.abortDelaySetting.getD setting.plan.schedule.firstDuration ≤ clock
  /-- It was made an interval after the load began, and after every check before it. -/
  begun : ∃ begun, BeganAt setting upcoming cancelAt begun state
  first : ∀ begun, BeganAt setting upcoming cancelAt begun state →
    begun + setting.plan.thresholdInterval.nanos ≤ time
      ∧ clock = .ofNanosCapped (time - begun - setting.pausedTime time)
  apart : ∀ time' clock' passed', (time', .checked clock' passed') ∈ earlier →
    time' + setting.plan.thresholdInterval.nanos ≤ time
  /-- It judged what had been recorded by then. -/
  verdict : ∃ snapshot, (sinkAfter setting (deliveries earlier)).snapshot? = some snapshot
    ∧ passed = (Threshold.evaluate setting.plan.abortThresholds snapshot clock).passed
  /-- None had failed before, and where it fails the load ends at once and for good. -/
  unfailed : ¬ Failed earlier
  ends : passed = false →
    (∃ rest, later = rest ++ [(time, .closed true)]) ∧ ∀ entry ∈ later, entry.2.isOfLoad = false

/-- **The checks of a run keep their timetable.** -/
structure KeepsTimetable (setting : Setting) (upcoming : List (Nat × Command)) (cancelAt : Option Nat)
    (state : State) : Prop where
  thresholds : ∀ spec, spec ∈ setting.plan.abortThresholds ↔ spec ∈ setting.plan.thresholds
    ∧ ∃ kind, setting.plan.scenario.kindOf? spec.metric = some kind ∧ (kind = .counter →
      spec.expression.aggregate ≠ .rate ∧ spec.expression.comparison ∈ [.less, .atMost])
  checks : ∀ later earlier time clock passed,
    state.crowd.log = later ++ (time, .checked clock passed) :: earlier →
    OnTime setting upcoming cancelAt state later earlier time clock passed
  /-- The load is ended by a check that fails, before which none has, or for another cause. -/
  causes : ∀ next load tick load' deadline, Step setting state next → state.phase = .loading load tick →
    next.phase = .draining load' deadline →
    (∃ events earlier, next.crowd.log = events ++ (state.crowd.now, .closed true)
        :: (state.crowd.now, .checked (clock setting load state.crowd.now) false) :: earlier ∧ ¬ Failed earlier)
      ∨ (¬ Failed next.crowd.log ∧ (state.cancelledOutside cancelAt = true ∨ .stop ∈ state.received upcoming
        ∨ setting.plan.schedule.isFinished (clock setting load state.crowd.now) = true))
  /-- No check is left out: where the load goes on from a look without one, it was not due. -/
  prompt : ∀ load tick load' tick', state.phase = .loading load tick →
    (state.advance setting).phase = .loading load' tick' →
    (state.crowd.now, .checked (clock setting load state.crowd.now) true) ∈ (state.advance setting).crowd.log
      ∨ setting.plan.abortOnFail = false ∨ setting.plan.abortThresholds = []
      ∨ ¬ setting.plan.abortDelay ≤ clock setting load state.crowd.now
      ∨ ∃ last, state.crowd.now < last + setting.plan.thresholdInterval.nanos
        ∧ (BeganAt setting upcoming cancelAt last state
          ∨ ∃ clock, (last, .checked clock true) ∈ state.crowd.log)

theorem onTime_of_checked {later earlier : List (Nat × Event)} {time : Nat} {clock : Duration} {passed : Bool}
    (reaches : Reaches setting upcoming cancelAt state)
    (hlog : state.crowd.log = later ++ (time, .checked clock passed) :: earlier) :
    OnTime setting upcoming cancelAt state later earlier time clock passed := by
  have hmem : (time, Event.checked clock passed) ∈ state.crowd.log :=
    hlog ▸ List.mem_append_right _ List.mem_cons_self
  obtain ⟨begun, began⟩ : ∃ begun, BeganAt setting upcoming cancelAt begun state :=
    (unbegun_or_beganAt reaches).resolve_left fun unbegun => by simpa [Event.isOfLoad] using unbegun.calm _ hmem
  have htimed := (paced_of_beganAt began).timed
  have due := htimed.due hlog
  refine {
    asked := due.asked
    tick := due.tick
    delay := due.delay
    begun := ⟨begun, began⟩
    first := ?_
    apart := due.apart
    verdict := verdict_of_checked (sound_of_reaches reaches).moves hlog
    unfailed := due.unfailed
    ends := ?_ }
  · intro begun began
    have due := (paced_of_beganAt began).timed.due hlog
    exact ⟨due.first, due.unpaused⟩
  · rintro rfl
    exact htimed.ends hlog

/-- A run under load began it some time. -/
theorem going_of_reaches (reaches : Reaches setting upcoming cancelAt state)
    (loading : state.phase = .loading load tick) :
    ∃ begun, BeganAt setting upcoming cancelAt begun state ∧ Going begun load state.crowd := by
  rcases unbegun_or_beganAt reaches with unbegun | ⟨begun, began⟩
  · simpa [loading, Phase.isEarly, Phase.isClosed] using unbegun.idle
  · rcases (paced_of_beganAt began).phase with late | ⟨load', tick', loading', going⟩
    · simp [loading, Phase.isClosed] at late
    · obtain ⟨rfl, -⟩ := Phase.loading.inj (loading.symm.trans loading')
      exact ⟨begun, began, going⟩

/-- What has ended a load but a check. -/
theorem cause_of_heeds {followed : List Command} (heeds : Heeds setting upcoming cancelAt followed state)
    (unfailed : ¬ Failed state.crowd.log) (cause : state.crowd.cancelled = true ∨ .stop ∈ state.inbox
      ∨ setting.plan.schedule.isFinished (clock setting load state.crowd.now) = true) :
    state.cancelledOutside cancelAt = true ∨ .stop ∈ state.received upcoming
      ∨ setting.plan.schedule.isFinished (clock setting load state.crowd.now) = true := by
  rw [heeds.received_eq, List.mem_append]
  rcases cause with cancelled | stop | finished
  · rcases heeds.cancelled.mp cancelled with outside | stop | failed
    · exact .inl outside
    · exact .inr (.inl (.inl stop))
    · exact absurd failed unfailed
  · exact .inr (.inl (.inr stop))
  · exact .inr (.inr finished)

/-- Why no check was due. -/
theorem early_of_undue (going : Going begun load state.crowd)
    (undue : checkIsDue setting load (clock setting load state.crowd.now) state.crowd.now = false) :
    setting.plan.abortOnFail = false ∨ setting.plan.abortThresholds = []
      ∨ ¬ setting.plan.abortDelay ≤ clock setting load state.crowd.now
      ∨ state.crowd.now < load.lastCheck + setting.plan.thresholdInterval.nanos := by
  have hpast := going.past
  by_contra hnone
  simp only [not_or, not_not, Bool.not_eq_false, Nat.not_lt] at hnone
  obtain ⟨hset, hsome, hdelay, hinterval⟩ := hnone
  have hsince : setting.plan.thresholdInterval.nanos ≤ state.crowd.now - load.lastCheck := by omega
  simp [checkIsDue, hset, hsome, hdelay, hsince] at undue

/-- How a step ends a load that goes on. -/
theorem ends_by_check_or_cause {load' : Load} {deadline : Nat}
    (reaches : Reaches setting upcoming cancelAt state) (step : Step setting state next)
    (loading : state.phase = .loading load tick) (ends : next.phase = .draining load' deadline) :
    (∃ events earlier, next.crowd.log = events ++ (state.crowd.now, .closed true)
        :: (state.crowd.now, .checked (clock setting load state.crowd.now) false) :: earlier ∧ ¬ Failed earlier)
      ∨ (¬ Failed next.crowd.log ∧ (state.cancelledOutside cancelAt = true ∨ .stop ∈ state.received upcoming
        ∨ setting.plan.schedule.isFinished (clock setting load state.crowd.now) = true)) := by
  obtain ⟨begun, -, going⟩ := going_of_reaches reaches loading
  obtain ⟨followed, heeds⟩ := heeds_of_reaches reaches
  rcases step.visit loading with ⟨hphase, -⟩ | visit
  · simp [hphase, loading] at ends
  cases visit with
  | leave phase cause calm =>
      have hunfailed : ¬ Failed next.crowd.log := by simpa only [Failed, calm.mem_checked] using going.unfailed
      exact .inr ⟨hunfailed, cause_of_heeds heeds going.unfailed cause⟩
  | go phase kept undue crowd => simp [phase] at ends
  | pass phase kept due crowd => simp [phase] at ends
  | fail phase due log =>
      obtain ⟨events, hlog, -⟩ := log
      exact .inl ⟨events, _, hlog, mt failed_scaled.mp going.unfailed⟩
  | overflow phase crowd => simp [phase] at ends

/-- How a load goes on from a look at the schedule. -/
theorem checked_or_early {load' : Load} {tick' : Nat} (going : Going begun load state.crowd)
    (loading : state.phase = .loading load tick) (goes : (state.advance setting).phase = .loading load' tick') :
    (state.crowd.now, .checked (clock setting load state.crowd.now) true) ∈ (state.advance setting).crowd.log
      ∨ setting.plan.abortOnFail = false ∨ setting.plan.abortThresholds = []
      ∨ ¬ setting.plan.abortDelay ≤ clock setting load state.crowd.now
      ∨ state.crowd.now < load.lastCheck + setting.plan.thresholdInterval.nanos := by
  have hvisit : Visit setting load state (state.advance setting) := visit_advance loading
  cases hvisit with
  | leave phase cause calm => simp [phase] at goes
  | go phase kept undue crowd => exact .inr (early_of_undue going undue)
  | pass phase kept due crowd =>
      left
      rw [crowd, note, now_scaled]
      exact List.mem_cons_self
  | fail phase due log => simp [phase] at goes
  | overflow phase crowd => simp [phase] at goes

/-- **The checks of every run keep their timetable,** whatever the plan, the target and the commands are. -/
theorem keeps_timetable (reaches : Reaches setting upcoming cancelAt state) :
    KeepsTimetable setting upcoming cancelAt state := by
  refine ⟨fun spec => Plan.mem_abortThresholds_iff, ?_, ?_, ?_⟩
  · intro later earlier time clock passed hlog
    exact onTime_of_checked reaches hlog
  · intro next load tick load' deadline step loading ends
    exact ends_by_check_or_cause reaches step loading ends
  · intro load tick load' tick' loading goes
    obtain ⟨begun, began, going⟩ := going_of_reaches reaches loading
    rcases checked_or_early going loading goes with checked | unset | none | early | soon
    · exact .inl checked
    · exact .inr (.inl unset)
    · exact .inr (.inr (.inl none))
    · exact .inr (.inr (.inr (.inl early)))
    · refine .inr (.inr (.inr (.inr ⟨load.lastCheck, soon, ?_⟩)))
      rcases going.last with hbegun | hchecked
      · exact .inl (hbegun ▸ began)
      · exact .inr hchecked

end State

/-! ### A run with two checks -/

/-- A target that answers once before nobody can connect to it. -/
def oneAnswer : List Reply := [⟨.ofMillis 50, .ok ⟨409, .ofMillis 50, []⟩⟩, refused, refused, refused]

/-- Whether a check of the strict run against that target passes after a tenth of a second, and one fails after two. -/
def failsSecond (plan : Plan) : Bool :=
  (endAgainst oneAnswer plan).crowd.log.contains (100_000_000, .checked (.ofMillis 100) true)
    && (endAgainst oneAnswer plan).crowd.log.contains (200_000_000, .checked (.ofMillis 200) false)

/-- The check that passes is before the one that fails, which is the last. -/
theorem second_check_fails : ∃ plan later earlier, strict.resolve = .ok plan
    ∧ State.Reaches (against oneAnswer plan) [] none (endAgainst oneAnswer plan)
    ∧ (endAgainst oneAnswer plan).crowd.log
      = later ++ (200_000_000, .checked (.ofMillis 200) false) :: earlier
    ∧ (100_000_000, .checked (.ofMillis 100) true) ∈ earlier
    ∧ State.KeepsTimetable (against oneAnswer plan) [] none (endAgainst oneAnswer plan) := by
  have hany : strict.resolve.toOption.any failsSecond = true := by decide +kernel
  obtain ⟨plan, resolved, hfails⟩ := exists_ok_of_any hany
  simp only [failsSecond, Bool.and_eq_true, List.contains_iff_mem] at hfails
  obtain ⟨hpassed, hfailed⟩ := hfails
  obtain ⟨later, earlier, hlog⟩ := List.append_of_mem hfailed
  have reaches : State.Reaches (against oneAnswer plan) [] none (endAgainst oneAnswer plan) :=
    State.reaches_run _ [] none 40
  have htimetable := State.keeps_timetable reaches
  refine ⟨plan, later, earlier, resolved, reaches, hlog, ?_, htimetable⟩
  have hcalm := ((htimetable.checks later earlier _ _ _ hlog).ends rfl).2
  rw [hlog, List.mem_append, List.mem_cons] at hpassed
  rcases hpassed with hlater | hsame | hearlier
  · simpa [Event.isOfLoad] using hcalm _ hlater
  · simp at hsame
  · exact hearlier

end Simulation

end LoadTest
