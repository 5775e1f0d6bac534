import LoadTest.Proofs.Metric.Snapshot
import LoadTest.Proofs.Simulation.Life
import LoadTest.Proofs.Simulation.Reach
import Mathlib.Algebra.BigOperators.Group.List.Basic
import Mathlib.Data.UInt

/-!
# LoadTest.Proofs.Simulation.Accounting

The report of a run against its log. **Every iteration that a user completed is in the report once, and
nothing else is:** a request that was under way when its user was aborted adds to no series, and neither do
the requests of no user.
-/

namespace LoadTest.Simulation

open Crowd

variable {setting : Setting}

/-- **The report of a run adds up.** -/
structure Balanced (setting : Setting) (crowd : Crowd) (report : Report) : Prop where
  /-- The number of iterations is that of the requests whose outcome came back to their user. -/
  iterations : report.iterations = .ofNat (deliveries crowd.log).length
  requests : report.metrics.counter "http_reqs" = .ofNat (deliveries crowd.log).length
  outcomes : (report.outcomes.entries.map (·.2)).sum = .ofNat (deliveries crowd.log).length
  completed : (deliveries crowd.log).length = (crowd.users.map (·.completed)).sum
  /-- Each category has its deliveries, and each delivery one category. -/
  totals : ∀ c ∈ setting.plan.scenario.categories,
    (c.name, UInt64.ofNat (Outcome.tally setting.plan.scenario (deliveries crowd.log) c))
      ∈ report.outcomes.entries
  sum_totals : (setting.plan.scenario.categories.map fun c =>
    Outcome.tally setting.plan.scenario (deliveries crowd.log) c).sum = (deliveries crowd.log).length
  /-- All series are those of the deliveries: no other request has added to any of them. -/
  metrics : (Outcome.recordAll setting.plan.scenario (deliveries crowd.log) (initial setting).sink).snapshot?
    = some report.metrics
  /-- Each request of a user was recorded once when its reply had arrived, but for the last one of a user
  that was aborted. -/
  lives : ∀ user ∈ crowd.users, Whole setting user.id user.completed (life user.id crowd.log)
    ∨ (user.activity = .aborted ∧ Cut setting user.id user.completed (life user.id crowd.log))
  strangers : ∀ id, id ∉ crowd.users.map (·.id) → life id crowd.log = []
  /-- Users are aborted only after the load, when the time to finish is over. -/
  patient : ∀ time user, (time, .aborted user) ∈ crowd.log → Expired setting crowd.log time

theorem sum_map_ofNat (totals : List Nat) : (totals.map UInt64.ofNat).sum = .ofNat totals.sum := by
  induction totals with
  | nil => rfl
  | cons total rest ih => rw [List.map_cons, List.sum_cons, List.sum_cons, ih, UInt64.ofNat_add]

theorem nodup_names (scenario : Scenario) : (scenario.categories.map (·.name)).Nodup := by
  cases scenario with
  | couponIssue => decide
  | popularProducts threshold =>
      have hnames : (Scenario.popularProducts threshold).categories.map (·.name)
        = ["found", "unexpected_status", "transport_error", "parse_error"] := rfl
      rw [hnames]
      decide

/-- The outcomes of a report are the totals of the categories. -/
theorem outcomes_perm {info : RunInfo} {snapshot : Metric.Snapshot} {verdict : Threshold.Verdict}
    {scenario : Scenario} (hcategories : info.categories = scenario.categories.map (·.name)) :
    (Report.build info snapshot verdict).outcomes.entries.Perm
      (scenario.categories.map fun c => (c.name, snapshot.counter c.counterName)) := by
  have hentries : (info.categories.map fun name => (name, snapshot.counter (name ++ "_total")))
      = scenario.categories.map fun c => (c.name, snapshot.counter c.counterName) := by
    rw [hcategories, List.map_map]
    rfl
  rw [Report.build, hentries]
  refine Table.entries_ofList_perm ?_
  rw [List.map_map]
  exact nodup_names scenario

/-- Who has ended led a whole life, or was aborted. -/
theorem whole_or_cut {id n : Nat} {activity : Activity} {events : List (Nat × Event)}
    (leads : LeadsTo setting id n activity events) (hover : activity.isOver = true) :
    Whole setting id n events ∨ (activity = .aborted ∧ Cut setting id n events) := by
  cases activity with
  | stopped => exact .inl leads
  | crashed => exact .inl leads
  | aborted => exact .inr ⟨rfl, leads⟩
  | _ => simp [Activity.isOver] at hover

/-- **Whole iterations only.** Whatever the target answers and however late, whatever is commanded and
whenever the run is cancelled, and in whatever order users and run go on: a report that the run ends with
adds up. -/
theorem whole_iterations {setting : Setting} {upcoming : List (Nat × Command)} {cancelAt : Option Nat}
    {state : State} {report : Report} (reaches : State.Reaches setting upcoming cancelAt state)
    (reported : state.outcome? = some (.reported report)) : Balanced setting state.crowd report := by
  obtain ⟨moves, fits⟩ := State.sound_of_reaches reaches
  have hphase : state.phase = .ended (.reported report) := State.phase_of_outcome? reported
  rw [hphase] at fits
  obtain ⟨hover, info, snapshot, load, active, hcategories, hsnapshot, -, rfl, -⟩ := fits
  have haccounted := accounted_of_moves moves
  have hagrees :=
    Outcome.agrees_recordAll setting.plan.scenario setting.plan.shards (deliveries state.crowd.log)
  have hsink : state.crowd.sink = Outcome.recordAll setting.plan.scenario (deliveries state.crowd.log)
    (setting.plan.scenario.sink setting.plan.shards) := by rw [haccounted.sink, sink_initial]
  rw [← hsink] at hagrees
  have hperm : (Report.build info snapshot (Threshold.evaluate setting.plan.thresholds snapshot
      active)).outcomes.entries.Perm _ := outcomes_perm hcategories
  -- The totals in the snapshot are the words of the numbers of deliveries.
  have htotals : setting.plan.scenario.categories.map (fun c => (c.name, snapshot.counter c.counterName))
      = setting.plan.scenario.categories.map fun c =>
        (c.name, UInt64.ofNat (Outcome.tally setting.plan.scenario (deliveries state.crowd.log) c)) :=
    List.map_congr_left fun c hc => by
      rw [Metric.Sink.counter_of_snapshot? hsnapshot (hagrees.totals c hc)]
  rw [htotals] at hperm
  refine {
    iterations := Metric.Sink.counter_of_snapshot? hsnapshot hagrees.iterations
    requests := Metric.Sink.counter_of_snapshot? hsnapshot hagrees.httpReqs
    outcomes := ?_
    completed := haccounted.completed
    totals := fun c hc => hperm.mem_iff.mpr (List.mem_map_of_mem hc)
    sum_totals := hagrees.sum_totals
    metrics := haccounted.sink ▸ hsnapshot
    lives := fun user mem =>
      whole_or_cut (haccounted.lives user mem) (List.all_eq_true.mp hover user mem)
    strangers := haccounted.strangers
    patient := haccounted.patient }
  calc ((Report.build info snapshot _).outcomes.entries.map (·.2)).sum
      _ = ((setting.plan.scenario.categories.map fun c =>
            Outcome.tally setting.plan.scenario (deliveries state.crowd.log) c).map UInt64.ofNat).sum := by
          rw [(hperm.map (·.2)).sum_eq, List.map_map, List.map_map]
          rfl
      _ = .ofNat (deliveries state.crowd.log).length := by rw [sum_map_ofNat, hagrees.sum_totals]

/-- A run of two users, the second of whom the target keeps waiting. -/
def unequal : Setting where
  plan := { Plan.ofSchedule "http://t" .couponIssue (.shared 1 ⟨10, 0, 1⟩)
      ⟨[⟨.zero, 2⟩, ⟨.ofSeconds 1, 2⟩], by decide, by decide⟩ with
    thinkTime := ⟨.zero, .zero⟩
    tick := .ofSeconds 1
    gracefulStop := .ofSeconds 1
    healthCheck := some "/health" }
  target := fun request count =>
    if request.method = .get then ⟨.ofMillis 1, .ok ⟨200, .ofMillis 1, []⟩⟩
    else if request.header? "userId" = some "3" then ⟨.ofSeconds 9, .ok ⟨409, .ofSeconds 9, []⟩⟩
    else if count = 0 then ⟨.ofMillis 400, .ok ⟨409, .ofMillis 400, []⟩⟩
    else ⟨.ofMillis 400, .error (.connection "refused")⟩

/-- That run at its end. -/
def unequalEnd : State := (State.start unequal [] none).run unequal 30

/-- The first user completes three iterations; the one request of the second is not in the report. -/
theorem three_iterations_and_one_lost : ∃ report, State.Reaches unequal [] none unequalEnd
    ∧ unequalEnd.outcome? = some (.reported report) ∧ Balanced unequal unequalEnd.crowd report
    ∧ report.iterations = 3
    ∧ unequalEnd.crowd.users.map (fun user => (user.completed, user.activity))
      = [(3, .stopped), (0, .aborted)] := by
  obtain ⟨hsome, hcount, husers⟩ : (unequalEnd.outcome?.bind Outcome.report?).isSome = true
      ∧ (deliveries unequalEnd.crowd.log).length = 3
      ∧ unequalEnd.crowd.users.map (fun user => (user.completed, user.activity))
        = [(3, .stopped), (0, .aborted)] := by decide +kernel
  obtain ⟨report, hreport⟩ := Option.isSome_iff_exists.mp hsome
  have reported : unequalEnd.outcome? = some (.reported report) := Outcome.eq_of_report? hreport
  have reaches : State.Reaches unequal [] none unequalEnd := State.reaches_run unequal [] none 30
  have hbalanced := whole_iterations reaches reported
  refine ⟨report, reaches, reported, hbalanced, ?_, husers⟩
  rw [hbalanced.iterations, hcount]
  rfl

end LoadTest.Simulation
