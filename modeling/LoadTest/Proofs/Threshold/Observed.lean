import LoadTest.Proofs.Fallible
import LoadTest.Proofs.Simulation.EarlyEnd
import Mathlib.Data.List.Forall2

/-!
# LoadTest.Proofs.Threshold.Observed

Which criteria have a value. **A criterion has a value in a snapshot exactly if it was accepted before the
run:** the table of what applies to which kind of series (`Aggregate.appliesTo`), the kinds in the catalog
of a scenario and the kinds in a snapshot agree. That nothing has been recorded yet, or that no time has
passed, takes no value away. So where a plan has been checked, every criterion passes or fails by a value.
-/

namespace LoadTest

open LoadTest.Metric Threshold Outcome

/-! ### Values of a series -/

/-- A summary that keeps its samples, or has none, knows every percentile. -/
theorem Metric.TrendSummary.isSome_percentile? {t : TrendSummary} (whole : t.sorted = [] → t.count = 0)
    (p : Binary64) : (t.percentile? p).isSome = true := by
  unfold percentile?
  cases hsorted : t.sorted with
  | cons first rest => rfl
  | nil =>
      have hcount : t.count = 0 := whole hsorted
      rw [List.isEmpty_nil, if_pos rfl]
      unfold stored?
      rw [if_pos hcount]
      split_ifs <;> rfl

namespace Threshold.Spec

variable {spec : Spec} {elapsed : Duration}

theorem isSome_trendValue?_iff {t : TrendSummary} (whole : t.sorted = [] → t.count = 0)
    (aggregate : Aggregate) :
    (trendValue? t aggregate).isSome = true ↔ aggregate.appliesTo .trend = true := by
  cases aggregate with
  | percentile p => simp [trendValue?, t.isSome_percentile? whole p, Aggregate.appliesTo]
  | _ => simp [trendValue?, Aggregate.appliesTo]

theorem isSome_counterValue?_iff (total : UInt64) (elapsed : Duration) (aggregate : Aggregate) :
    (counterValue? total elapsed aggregate).isSome = true ↔ aggregate.appliesTo .counter = true := by
  cases aggregate <;> simp [counterValue?, Aggregate.appliesTo]

theorem check_eq_ok_iff {kind : Kind} :
    spec.check kind = .ok () ↔ spec.expression.aggregate.appliesTo kind = true := by
  unfold check
  split
  · next h => simp [h]
  · next h => simp [h]

/-- **A criterion has a value exactly if its aggregate applies to its series.** -/
theorem isSome_observed?_iff {sink : Sink} {snapshot : Snapshot} (taken : sink.snapshot? = some snapshot) :
    (spec.observed? snapshot elapsed).isSome = true
      ↔ ∃ kind, sink.kindOf? spec.metric = some kind ∧ spec.check kind = .ok () := by
  have hkind : snapshot.kindOf? spec.metric = sink.kindOf? spec.metric :=
    Sink.kindOf?_of_snapshot? taken spec.metric
  unfold observed?
  rw [hkind]
  cases hsink : sink.kindOf? spec.metric with
  | none => simp
  | some kind =>
      simp only [Option.some.injEq, exists_eq_left', check_eq_ok_iff]
      cases kind with
      | counter => exact isSome_counterValue?_iff ..
      | rate => by_cases hrate : spec.expression.aggregate = .rate <;> simp [hrate, Aggregate.appliesTo]
      | trend =>
          obtain ⟨trend, hfound⟩ := Sink.exists_trend_of_kindOf? hsink
          obtain ⟨summary, hsummary, hsorted⟩ := Sink.trend_of_snapshot? taken hfound
          -- A summary without samples counts none.
          have whole : summary.sorted = [] → summary.count = 0 := by
            intro hnil
            rw [TrendSummary.sorted_of_ofSorted? hsorted] at hnil
            rw [TrendSummary.count_of_ofSorted? hsorted, hnil]
            rfl
          simp only [hsummary, Option.bind_eq_bind, Option.bind_some]
          exact isSome_trendValue?_iff whole _

end Threshold.Spec

/-! ### Values in a run -/

namespace Outcome

/-- Whatever has been recorded, and whatever the time: the catalog says which criteria have a value. -/
theorem isSome_observed?_recordEach {scenario : Scenario} {shards : Nat}
    {records : List (Category × Exchange)} {snapshot : Snapshot}
    (taken : (recordEach scenario records (scenario.sink shards)).snapshot? = some snapshot)
    (spec : Spec) (elapsed : Duration) :
    (spec.observed? snapshot elapsed).isSome = true
      ↔ ∃ kind, scenario.kindOf? spec.metric = some kind ∧ spec.check kind = .ok () := by
  rw [Spec.isSome_observed?_iff taken, kindOf?_recordEach, kindOf?_sink]

end Outcome

namespace Plan

variable {plan : Plan} {spec : Spec}

/-- A checked plan has only criteria on what its scenario records. -/
theorem checked_iff : plan.checkThresholds = .ok () ↔ ∀ spec ∈ plan.thresholds,
    ∃ kind, plan.scenario.kindOf? spec.metric = some kind ∧ spec.check kind = .ok () := by
  have hone : ∀ spec, checkThreshold plan.scenario spec = .ok ()
      ↔ ∃ kind, plan.scenario.kindOf? spec.metric = some kind ∧ spec.check kind = .ok () := by
    intro spec
    unfold checkThreshold
    cases plan.scenario.kindOf? spec.metric <;> simp
  rw [checkThresholds, forM_eq_ok_iff]
  simp only [hone]

end Plan

namespace Threshold

/-- A criterion passed or failed by comparing a value with its bound. -/
def Spec.DecidedBy (spec : Spec) (value : Binary64) (result : Result) : Prop :=
  result = ⟨spec.metric, spec.source, some value,
    spec.expression.comparison.holds value spec.expression.bound, spec.description⟩

/-- A verdict has a result for each criterion, decided by a value. -/
def Decided (specs : List Spec) (results : List Result) : Prop :=
  List.Forall₂ (fun spec result => ∃ value, spec.DecidedBy value result) specs results

theorem decided_evaluate {specs : List Spec} {snapshot : Snapshot} {elapsed : Duration}
    (observed : ∀ spec ∈ specs, (spec.observed? snapshot elapsed).isSome = true) :
    Decided specs (evaluate specs snapshot elapsed).results := by
  rw [Decided, evaluate, List.forall₂_map_right_iff, List.forall₂_same]
  intro spec mem
  obtain ⟨value, hvalue⟩ := Option.isSome_iff_exists.mp (observed spec mem)
  exact ⟨value, by simp [Spec.DecidedBy, Spec.judge, hvalue]⟩

end Threshold

namespace Simulation

open Crowd

/-- **Every criterion of a run is decided by a value.** -/
structure DecidesByValues (setting : Setting) (state : State) : Prop where
  /-- Whatever has been recorded so far, and however long that took. -/
  anytime : ∀ snapshot, state.crowd.sink.snapshot? = some snapshot → ∀ elapsed,
    Decided setting.plan.thresholds (evaluate setting.plan.thresholds snapshot elapsed).results
  /-- Each check during the load was a verdict on what had been recorded before it. -/
  checks : ∀ later earlier time clock passed,
    state.crowd.log = later ++ (time, .checked clock passed) :: earlier →
    ∃ snapshot, (sinkAfter setting (deliveries earlier)).snapshot? = some snapshot
      ∧ passed = (evaluate setting.plan.abortThresholds snapshot clock).passed
      ∧ Decided setting.plan.abortThresholds (evaluate setting.plan.abortThresholds snapshot clock).results
  report : ∀ report, state.outcome? = some (.reported report) →
    Decided setting.plan.thresholds report.thresholds

/-- **Checked criteria have values.** In a snapshot of what a scenario records, whatever that is by then and
however much time has passed, exactly the criteria that the check accepts have a value. So in a run whose
plan has been checked no criterion fails for want of one, neither during the load nor at the end. -/
theorem decided_by_values :
    (∀ (scenario : Scenario) (shards : Nat) (records : List (Category × Exchange)) (snapshot : Snapshot),
        (recordEach scenario records (scenario.sink shards)).snapshot? = some snapshot →
        ∀ (spec : Spec) (elapsed : Duration), (spec.observed? snapshot elapsed).isSome = true
          ↔ ∃ kind, scenario.kindOf? spec.metric = some kind ∧ spec.check kind = .ok ())
      ∧ ∀ (setting : Setting) (upcoming : List (Nat × Command)) (cancelAt : Option Nat) (state : State),
        setting.plan.checkThresholds = .ok () → State.Reaches setting upcoming cancelAt state →
        DecidesByValues setting state := by
  refine ⟨fun scenario shards records snapshot taken => isSome_observed?_recordEach taken, ?_⟩
  intro setting upcoming cancelAt state checked reaches
  have haccepted := Plan.checked_iff.mp checked
  have hobserved : ∀ exchanges snapshot, (sinkAfter setting exchanges).snapshot? = some snapshot →
      ∀ spec ∈ setting.plan.thresholds, ∀ elapsed, (spec.observed? snapshot elapsed).isSome = true := by
    intro exchanges snapshot taken spec mem elapsed
    rw [sinkAfter, sink_initial, recordAll_eq_recordEach] at taken
    exact (isSome_observed?_recordEach taken spec elapsed).mpr (haccepted spec mem)
  obtain ⟨moves, fits⟩ := State.sound_of_reaches reaches
  have hsink : state.crowd.sink = sinkAfter setting (deliveries state.crowd.log) :=
    (accounted_of_moves moves).sink
  have hanytime : ∀ snapshot, state.crowd.sink.snapshot? = some snapshot → ∀ elapsed,
      Decided setting.plan.thresholds (evaluate setting.plan.thresholds snapshot elapsed).results := by
    intro snapshot taken elapsed
    rw [hsink] at taken
    exact decided_evaluate fun spec mem => hobserved _ _ taken spec mem elapsed
  refine ⟨hanytime, ?_, ?_⟩
  · intro later earlier time clock passed hlog
    obtain ⟨snapshot, taken, hpassed⟩ := verdict_of_checked moves hlog
    refine ⟨snapshot, taken, hpassed, decided_evaluate fun spec mem => ?_⟩
    exact hobserved _ _ taken spec (List.mem_of_mem_filter mem) clock
  · intro report reported
    have hphase : state.phase = .ended (.reported report) := State.phase_of_outcome? reported
    rw [hphase] at fits
    obtain ⟨-, info, snapshot, load, active, -, taken, -, rfl, -⟩ := fits
    exact hanytime snapshot taken active

/-- A run of one second in which there is no user, judged by its throughput and by a high percentile. -/
def deserted : Setting where
  plan := { Plan.ofSchedule "http://t" .couponIssue (.shared 1 ⟨10, 0, 1⟩)
      ⟨[⟨.ofSeconds 1, 0⟩], by decide, by decide⟩ with
    tick := .ofSeconds 1
    thresholds := [⟨"http_reqs", "rate>50", ⟨.rate, .greater, .ofNat 50⟩, none⟩,
      ⟨"http_req_duration", "p(95)<300", ⟨.percentile (.ofNat 95), .less, .ofNat 300⟩, none⟩] }
  target := fun _ _ => ⟨.ofSeconds 1, .error (.connection "refused")⟩

/-- That run at its end. -/
def desertedEnd : State := (State.start deserted [] none).run deserted 20

/-- Where nothing is ever recorded, throughput and percentile are zero: the one fails, the other passes. -/
theorem nothing_recorded_decides : deserted.plan.checkThresholds = .ok ()
    ∧ State.Reaches deserted [] none desertedEnd ∧ DecidesByValues deserted desertedEnd
    ∧ ∃ report, desertedEnd.outcome? = some (.reported report)
      ∧ report.thresholds.map (fun result => (result.observed, result.passed))
        = [(some 0, false), (some 0, true)] := by
  have checked : deserted.plan.checkThresholds = .ok () := by decide +kernel
  have reaches : State.Reaches deserted [] none desertedEnd := State.reaches_run deserted [] none 20
  obtain ⟨report, hreport, hresults⟩ := (Option.any_eq_true ..).mp
    (show (desertedEnd.outcome?.bind Outcome.report?).any (fun report => decide
        (report.thresholds.map (fun result => (result.observed, result.passed))
          = [(some 0, false), (some 0, true)])) = true by decide +kernel)
  have decides := decided_by_values.2 deserted [] none desertedEnd checked reaches
  exact ⟨checked, reaches, decides, report, Outcome.eq_of_report? hreport, of_decide_eq_true hresults⟩

end Simulation

end LoadTest
