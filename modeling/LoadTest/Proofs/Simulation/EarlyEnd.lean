import LoadTest.Config.Resolve
import LoadTest.Proofs.Fallible
import LoadTest.Proofs.Simulation.Accounting

/-!
# LoadTest.Proofs.Simulation.EarlyEnd

Runs that a failed check ends. **After a check has failed no user sends a request, but what was under way
is still recorded,** so the verdict of the report is not that of the check: it is a verdict on one more
exchange of each user at most. Where none of them was recorded the report fails as the check did.
-/

namespace LoadTest

open Threshold

/-! ### Criteria checked during a run -/

/-- The value of a criterion that is checked during a run hangs on no time. -/
theorem Plan.observed?_abortThresholds {plan : Plan} {spec : Spec} {snapshot : Metric.Snapshot}
    (mem : spec ∈ plan.abortThresholds)
    (hkind : snapshot.kindOf? spec.metric = plan.scenario.kindOf? spec.metric)
    (elapsed elapsed' : Duration) :
    spec.observed? snapshot elapsed = spec.observed? snapshot elapsed' := by
  obtain ⟨-, hchecked⟩ := List.mem_filter.mp mem
  unfold Spec.observed?
  rw [hkind]
  cases h : plan.scenario.kindOf? spec.metric with
  | none => rfl
  | some kind =>
      cases kind with
      | counter =>
          -- A rate per second is the only value that hangs on time, and it needs the full run.
          have hrate : spec.expression.aggregate ≠ .rate := fun heq => by
            simp [h, Spec.needsFullRun, heq] at hchecked
          cases haggregate : spec.expression.aggregate with
          | rate => exact absurd haggregate hrate
          | _ => simp only [Spec.counterValue?]
      | _ => rfl

/-- A verdict fails if some criterion does. -/
theorem Threshold.passed_evaluate_eq_false {specs : List Spec} {snapshot : Metric.Snapshot}
    {elapsed : Duration} : (evaluate specs snapshot elapsed).passed = false
      ↔ ∃ spec ∈ specs, (spec.judge snapshot elapsed).passed = false := by
  simp [evaluate]

/-- What fails during a run fails at its end, if nothing changes. -/
theorem Plan.failed_of_abortThresholds {plan : Plan} {snapshot : Metric.Snapshot}
    (hkinds : ∀ name, snapshot.kindOf? name = plan.scenario.kindOf? name) {clock : Duration}
    (failed : (evaluate plan.abortThresholds snapshot clock).passed = false) (elapsed : Duration) :
    (evaluate plan.thresholds snapshot elapsed).passed = false := by
  obtain ⟨spec, mem, hfailed⟩ := passed_evaluate_eq_false.mp failed
  refine passed_evaluate_eq_false.mpr ⟨spec, List.mem_of_mem_filter mem, ?_⟩
  simp only [Spec.judge, observed?_abortThresholds mem (hkinds _) elapsed clock] at hfailed ⊢
  exact hfailed

namespace Simulation

namespace Crowd

variable {setting : Setting} {crowd after : Crowd} {later earlier : List (Nat × Event)} {time : Nat}
  {clock : Duration} {passed : Bool}

/-! ### Checks in the log -/

/-- Where a check stands in the log after a change: it was there before, or it is the change. -/
theorem Noted.split {events : List (Nat × Event)} (noted : Noted setting crowd after events)
    (hlog : after.log = later ++ (time, .checked clock passed) :: earlier) :
    (∃ newer, later = events ++ newer ∧ crowd.log = newer ++ (time, .checked clock passed) :: earlier)
      ∨ (later = [] ∧ earlier = crowd.log ∧ ∃ snapshot, crowd.sink.snapshot? = some snapshot
        ∧ passed = (evaluate setting.plan.abortThresholds snapshot clock).passed) := by
  rw [noted.log] at hlog
  rcases List.append_eq_append_iff.mp hlog with ⟨newer, hlater, hcrowd⟩ | ⟨rest, hevents, hcrowd⟩
  · exact .inl ⟨newer, hlater, hcrowd⟩
  · cases rest with
    | nil => exact .inl ⟨[], by simpa using hevents.symm, by simpa using hcrowd.symm⟩
    | cons first rest =>
        obtain ⟨rfl, rfl⟩ := List.cons.inj hcrowd
        obtain ⟨hsingle, hverdict, -⟩ := noted.checks time clock passed (by simp [hevents])
        rw [hevents, List.append_eq_singleton_iff] at hsingle
        rcases hsingle with ⟨rfl, hrest⟩ | ⟨-, hnil⟩
        · obtain ⟨-, rfl⟩ := List.cons.inj hrest
          exact .inr ⟨rfl, rfl, hverdict⟩
        · exact absurd hnil (List.cons_ne_nil _ _)

/-- **A check judges what was recorded before it.** -/
theorem verdict_of_checked (moves : Moves setting (initial setting) crowd)
    (hlog : crowd.log = later ++ (time, .checked clock passed) :: earlier) :
    ∃ snapshot, (Outcome.recordAll setting.plan.scenario (deliveries earlier)
        (initial setting).sink).snapshot? = some snapshot
      ∧ passed = (evaluate setting.plan.abortThresholds snapshot clock).passed := by
  induction moves generalizing later with
  | refl => exact absurd hlog.symm (List.append_ne_nil_of_right_ne_nil _ (List.cons_ne_nil _ _))
  | tail before move ih =>
      obtain ⟨events, hnoted⟩ := move.notes
      rcases hnoted.split hlog with ⟨newer, -, hcrowd⟩ | ⟨-, rfl, snapshot, hsnapshot, hpassed⟩
      · exact ih hcrowd
      · exact ⟨snapshot, (accounted_of_moves before).sink ▸ hsnapshot, hpassed⟩

/-- **After a failed check no user sends a request.** -/
theorem unsent_of_checked (moves : Moves setting (initial setting) crowd)
    (hlog : crowd.log = later ++ (time, .checked clock false) :: earlier) :
    ∀ entry ∈ later, entry.2.isSent = false := by
  induction moves generalizing later with
  | refl => exact absurd hlog.symm (List.append_ne_nil_of_right_ne_nil _ (List.cons_ne_nil _ _))
  | tail before move ih =>
      obtain ⟨events, hnoted⟩ := move.notes
      rcases hnoted.split hlog with ⟨newer, rfl, hcrowd⟩ | ⟨rfl, -⟩
      · have hfailed : Failed _ := ⟨time, clock, hcrowd ▸ List.mem_append_right _ List.mem_cons_self⟩
        have hunsent := (hnoted.cancelled (cancelled_of_failed before hfailed)).2
        exact List.forall_mem_append.mpr ⟨hunsent, ih hcrowd⟩
      · exact List.forall_mem_nil _

/-! ### What was under way -/

theorem deliveries_of_append (later earlier : List (Nat × Event)) :
    deliveries (later ++ earlier) = deliveries earlier ++ deliveries later := by
  rw [deliveries, List.reverse_append, List.filterMap_append]
  rfl

/-- In a whole life at most one iteration ends without another being begun. -/
theorem Whole.length_deliveries_le {user n : Nat} (whole : Whole setting user n (later ++ earlier))
    (unsent : ∀ entry ∈ later, entry.2.isSent = false) : (deliveries later).length ≤ 1 := by
  cases later with
  | nil => exact Nat.zero_le 1
  | cons first rest =>
      cases rest with
      | nil => exact List.length_filterMap_le ..
      | cons second rest =>
          -- The second latest event of a whole life is a request.
          cases whole
          simpa [Event.isSent] using unsent _ (List.mem_cons_of_mem _ List.mem_cons_self)

/-- So it is in a life that was cut off. -/
theorem Cut.length_deliveries_le {user n : Nat} (cut : Cut setting user n (later ++ earlier))
    (unsent : ∀ entry ∈ later, entry.2.isSent = false) : (deliveries later).length ≤ 1 := by
  cases later with
  | nil => exact Nat.zero_le 1
  | cons first rest =>
      cases rest with
      | nil => exact List.length_filterMap_le ..
      | cons second rest =>
          cases cut with
          | between whole =>
              rw [deliveries_cons]
              have hrest := whole.length_deliveries_le fun entry mem =>
                unsent entry (List.mem_cons_of_mem _ mem)
              simpa [Event.delivery?] using hrest
          | lost whole =>
              simpa [Event.isSent] using unsent _ (List.mem_cons_of_mem _ List.mem_cons_self)

/-- What may still be recorded once nobody sends a request: one exchange of each user. -/
theorem Accounted.length_deliveries_le (accounted : Accounted setting crowd) (hover : crowd.allOver = true)
    (hlog : crowd.log = later ++ earlier) (unsent : ∀ entry ∈ later, entry.2.isSent = false) (id : Nat) :
    (deliveries (life id later)).length ≤ 1 := by
  have hsplit : life id crowd.log = life id later ++ life id earlier := by
    rw [hlog, life, List.filter_append, life, life]
  have hunsent : ∀ entry ∈ life id later, entry.2.isSent = false := fun entry mem =>
    unsent entry (List.mem_of_mem_filter mem)
  by_cases hid : id ∈ crowd.users.map (·.id)
  · obtain ⟨user, mem, rfl⟩ := List.mem_map.mp hid
    have hlives := accounted.lives user mem
    rw [hsplit] at hlives
    rcases whole_or_cut hlives (List.all_eq_true.mp hover user mem) with whole | ⟨-, cut⟩
    · exact whole.length_deliveries_le hunsent
    · exact cut.length_deliveries_le hunsent
  · have hstranger := accounted.strangers id hid
    rw [hsplit, List.append_eq_nil_iff] at hstranger
    rw [hstranger.1]
    exact Nat.zero_le 1

end Crowd

open Crowd

/-- What the sink of a run holds after some exchanges. -/
def sinkAfter (setting : Setting) (exchanges : Outcome.Exchanges) : Metric.Sink :=
  Outcome.recordAll setting.plan.scenario exchanges (initial setting).sink

/-- A series is of the kind that it has in the scenario. -/
theorem kindOf?_of_sinkAfter {setting : Setting} {exchanges : Outcome.Exchanges}
    {snapshot : Metric.Snapshot} (h : (sinkAfter setting exchanges).snapshot? = some snapshot)
    (name : String) : snapshot.kindOf? name = setting.plan.scenario.kindOf? name := by
  rw [Metric.Sink.kindOf?_of_snapshot? h, sinkAfter, sink_initial, Outcome.kindOf?_recordAll]

/-- **What the report of a run says that a failed check ended.** The check was at a time `clock` of the
schedule; `earlier` is what had happened before it, and `later` what happened after it. -/
structure EndsEarly (setting : Setting) (earlier later : List (Nat × Event)) (clock : Duration)
    (report : Report) : Prop where
  aborted : report.aborted = true
  /-- The check judged what was recorded before it. -/
  failed : ∃ snapshot, (sinkAfter setting (deliveries earlier)).snapshot? = some snapshot
    ∧ (evaluate setting.plan.abortThresholds snapshot clock).passed = false
  /-- The report judges that, and what was recorded after it. -/
  metrics : (sinkAfter setting (deliveries earlier ++ deliveries later)).snapshot? = some report.metrics
  /-- It fails exactly if a criterion of the plan does, given how long the load lasted. -/
  verdict : ∃ load lasted active, Lasted setting load lasted active
    ∧ report.runMillis = .ofNat (lasted.nanos / 1_000_000)
    ∧ report.thresholds = setting.plan.thresholds.map (·.judge report.metrics active)
    ∧ (report.passed = false
      ↔ ∃ spec ∈ setting.plan.thresholds, (spec.judge report.metrics active).passed = false)
  /-- What was recorded after the check had been under way: one exchange of each user at most. -/
  unsent : ∀ entry ∈ later, entry.2.isSent = false
  underWay : ∀ id, (deliveries (life id later)).length ≤ 1
  /-- A criterion of the check that still fails is enough, whatever the time. -/
  unrepaired : ∀ clock', (evaluate setting.plan.abortThresholds report.metrics clock').passed = false →
    report.passed = false
  unchanged : deliveries later = [] → report.passed = false

/-- **Ends of runs whose check failed.** They are reported as aborted, but judged by what was recorded by
the end. -/
theorem ends_early {setting : Setting} {upcoming : List (Nat × Command)} {cancelAt : Option Nat}
    {state : State} {report : Report} {earlier later : List (Nat × Event)} {time : Nat} {clock : Duration}
    (reaches : State.Reaches setting upcoming cancelAt state)
    (reported : state.outcome? = some (.reported report))
    (checked : state.crowd.log = later ++ (time, .checked clock false) :: earlier) :
    EndsEarly setting earlier later clock report := by
  obtain ⟨moves, fits⟩ := State.sound_of_reaches reaches
  have hphase : state.phase = .ended (.reported report) := State.phase_of_outcome? reported
  rw [hphase] at fits
  obtain ⟨hover, info, snapshot, load, active, -, hsnapshot, hlasted, rfl, haborted⟩ := fits
  have haccounted := accounted_of_moves moves
  have hunsent := unsent_of_checked moves checked
  obtain ⟨before, hbefore, hfailed⟩ := verdict_of_checked moves checked
  have hdeliveries : deliveries state.crowd.log = deliveries earlier ++ deliveries later := by
    rw [checked, deliveries_of_append, deliveries_cons]
    simp [Event.delivery?]
  have hmetrics :
      (sinkAfter setting (deliveries earlier ++ deliveries later)).snapshot? = some snapshot := by
    rw [sinkAfter, ← hdeliveries, ← haccounted.sink, hsnapshot]
  have hunrepaired : ∀ clock', (evaluate setting.plan.abortThresholds snapshot clock').passed = false →
      (evaluate setting.plan.thresholds snapshot active).passed = false := fun clock' hfails =>
    Plan.failed_of_abortThresholds (kindOf?_of_sinkAfter hmetrics) hfails active
  refine {
    aborted := haborted ⟨time, clock, checked ▸ List.mem_append_right _ List.mem_cons_self⟩
    failed := ⟨before, hbefore, hfailed.symm⟩
    metrics := hmetrics
    verdict := ⟨load, info.runDuration, active, hlasted, rfl, rfl, passed_evaluate_eq_false⟩
    unsent := hunsent
    underWay := haccounted.length_deliveries_le hover checked hunsent
    unrepaired := hunrepaired
    unchanged := fun hnone => hunrepaired clock ?_ }
  -- Where nothing more was recorded, check and report judge the same snapshot.
  rw [hnone, List.append_nil] at hmetrics
  obtain rfl : before = snapshot := Option.some.inj (hbefore.symm.trans hmetrics)
  exact hfailed.symm

/-! ### A strict run -/

/-- A user who never rests, and a run that ends as soon as six exchanges in ten went wrong. -/
def strict : Config where
  baseUrl := some "http://t"
  scenario := some (.couponIssue none (some ⟨none, some 0, none⟩))
  stages := some [⟨"0ms", 1⟩, ⟨"1s", 1⟩]
  thinkTime := some ⟨"0ms", "0ms"⟩
  thresholds := some (Table.empty.insert "errors" [.bare "rate<0.6"])
  tick := some "100ms"
  inventory := some { enabled := some false }
  abortOnFail := some true
  thresholdInterval := some "100ms"

/-- A plan against a target that gives some replies in turn. -/
def against (replies : List Reply) (plan : Plan) : Setting :=
  { plan, target := .ofRoutes [("POST http://t/coupons/1/issue", replies)] }

/-- The end of that run. -/
def endAgainst (replies : List Reply) (plan : Plan) : State :=
  (State.start (against replies plan) [] none).run (against replies plan) 40

/-- Nobody can connect. -/
def refused : Reply := ⟨.ofMillis 50, .error (.connection "refused")⟩

/-- The coupon has been issued before, as the target says after a second. -/
def duplicate : Reply := ⟨.ofSeconds 1, .ok ⟨409, .ofSeconds 1, []⟩⟩

/-- Whether a strict run is ended by a check that fails, and its report says so and passes or fails. -/
def endsStrictly (replies : List Reply) (passed : Bool) : Bool :=
  strict.resolve.toOption.any fun plan => plan.abortOnFail
    && ((endAgainst replies plan).outcome?.bind Outcome.report?).any
      (fun report => report.aborted && report.passed == passed)
    && decide ((100_000_000, Event.checked (.ofMillis 100) false) ∈ (endAgainst replies plan).crowd.log)

theorem of_endsStrictly {replies : List Reply} {passed : Bool} (h : endsStrictly replies passed = true) :
    ∃ plan report earlier later time clock, strict.resolve = .ok plan ∧ plan.abortOnFail = true
      ∧ State.Reaches (against replies plan) [] none (endAgainst replies plan)
      ∧ (endAgainst replies plan).outcome? = some (.reported report)
      ∧ (endAgainst replies plan).crowd.log = later ++ (time, .checked clock false) :: earlier
      ∧ report.aborted = true ∧ report.passed = passed := by
  obtain ⟨plan, hresolve, hends⟩ := exists_ok_of_any h
  simp only [Bool.and_eq_true, decide_eq_true_eq] at hends
  obtain ⟨⟨hset, hreport⟩, hmem⟩ := hends
  obtain ⟨report, hreport, hsays⟩ := (Option.any_eq_true ..).mp hreport
  obtain ⟨haborted, hpassed⟩ : report.aborted = true ∧ report.passed = passed := by simpa using hsays
  obtain ⟨later, earlier, hlog⟩ := List.append_of_mem hmem
  exact ⟨plan, report, earlier, later, _, _, hresolve, hset, State.reaches_run _ [] none 40,
    Outcome.eq_of_report? hreport, hlog, haborted, hpassed⟩

/-- Where nobody can ever connect the report fails, as the check did. -/
theorem all_refused : ∃ plan report earlier later time clock, strict.resolve = .ok plan
    ∧ State.Reaches (against [refused] plan) [] none (endAgainst [refused] plan)
    ∧ (endAgainst [refused] plan).outcome? = some (.reported report)
    ∧ (endAgainst [refused] plan).crowd.log = later ++ (time, .checked clock false) :: earlier
    ∧ EndsEarly (against [refused] plan) earlier later clock report ∧ report.passed = false := by
  obtain ⟨plan, report, earlier, later, time, clock, hplan, -, reaches, reported, checked, -, hpassed⟩ :=
    of_endsStrictly (show endsStrictly [refused] false = true by decide +kernel)
  exact ⟨plan, report, earlier, later, time, clock, hplan, reaches, reported, checked,
    ends_early reaches reported checked, hpassed⟩

/-- **A run that was ended by a failed check may pass:** what was under way repairs the share of errors. -/
theorem one_duplicate_repairs : ∃ plan report earlier later time clock, strict.resolve = .ok plan
    ∧ plan.abortOnFail = true
    ∧ State.Reaches (against [refused, duplicate] plan) [] none (endAgainst [refused, duplicate] plan)
    ∧ (endAgainst [refused, duplicate] plan).outcome? = some (.reported report)
    ∧ (endAgainst [refused, duplicate] plan).crowd.log = later ++ (time, .checked clock false) :: earlier
    ∧ report.aborted = true ∧ report.passed = true :=
  of_endsStrictly (by decide +kernel)

end Simulation

end LoadTest
