import LoadTest.Config.Resolve
import LoadTest.Proofs.Fallible
import LoadTest.Proofs.Text.Blank
import LoadTest.Proofs.Threshold.Observed
import LoadTest.Proofs.Workload.Jitter
import LoadTest.Proofs.Workload.ThinkTime

/-!
# LoadTest.Proofs.Config.Resolve

What each part of a plan is made of. **Every setting is resolved on its own** (`resolve_eq_ok_iff`), and for
each there is one lemma that says which values are accepted and what becomes of them. Texts are durations,
or criteria, where their readers say so. What is used where a configuration says nothing is listed here on its
own (`usual`).
-/

namespace LoadTest.Config

open LoadTest.Metric Threshold

/-! ### What is used where nothing is said -/

/-- What a run of a scenario uses where its configuration says nothing. -/
structure Usual where
  name : String
  /-- Metrics and the criteria on them. -/
  criteria : List (String × String)
  pause : ThinkTime
  /-- The path that has to answer before the run. -/
  healthCheck : Option String

/-- Products have to be found sooner than coupons are issued, and with fewer errors; users wait longer between two of
them, and the service has to say first that it is well. -/
def usual : Scenario → Usual
  | .couponIssue => {
      name := "coupon-issue"
      criteria := [("http_req_duration", "p(50)<100"), ("http_req_duration", "p(95)<300"),
        ("http_req_duration", "p(99)<500"), ("errors", "rate<0.10"), ("http_req_failed", "rate<0.10"),
        ("http_reqs", "rate>50")]
      pause := ⟨.ofMillis 500, .ofSeconds 2⟩
      healthCheck := none }
  | .popularProducts _ => {
      name := "popular-products"
      criteria := [("http_req_duration", "p(50)<50"), ("http_req_duration", "p(95)<200"),
        ("http_req_duration", "p(99)<500"), ("errors", "rate<0.05"), ("http_req_failed", "rate<0.05"),
        ("http_reqs", "rate>100")]
      pause := ⟨.ofSeconds 1, .ofSeconds 3⟩
      healthCheck := some "/actuator/health" }

/-- Each scenario has what is usual. -/
theorem usual_eq (scenario : Scenario) : usual scenario
    = ⟨scenario.name, scenario.defaultThresholds, scenario.defaultThinkTime, scenario.defaultHealthCheck?⟩ := by
  cases scenario <;> rfl

/-- A ramp in three stages, and two to come down again. -/
def usualStages : List Stage :=
  [⟨.ofSeconds 15, 50⟩, ⟨.ofSeconds 15, 100⟩, ⟨.ofSeconds 30, 300⟩, ⟨.ofSeconds 15, 100⟩, ⟨.ofSeconds 15, 0⟩]

/-! ### Durations -/

/-- A setting denotes a duration; left out, it stands for a default. -/
def Denotes (given : Option String) (default d : Duration) : Prop :=
  match given with
  | some text => Duration.ofText? text = some d
  | none => d = default

/-- A text denotes a duration. -/
def IsDuration (text : String) : Prop := (Duration.ofText? text).isSome = true

/-- A text denotes a duration that is not zero. -/
def IsPositive (text : String) : Prop := ∃ d, Duration.ofText? text = some d ∧ d.nanos ≠ 0

theorem duration_eq_ok_iff {field text : String} {d : Duration} :
    duration field text = .ok d ↔ Duration.ofText? text = some d := by
  unfold duration
  cases Duration.ofText? text <;> simp

theorem durationOr_eq_ok_iff {field : String} {given : Option String} {default d : Duration} :
    durationOr field given default = .ok d ↔ Denotes given default d := by
  cases given with
  | none =>
      simp only [durationOr, Denotes, Except.ok.injEq]
      exact eq_comm
  | some text =>
      simp only [durationOr, Denotes]
      exact duration_eq_ok_iff

theorem positive_eq_ok_iff {field : String} {given d : Duration} :
    positive field given = .ok d ↔ given.nanos ≠ 0 ∧ given = d := by
  unfold positive
  split
  · next hzero => simp only [reduceCtorEq, hzero, ne_eq, not_true_eq_false, false_and]
  · next hne => simp only [Except.ok.injEq, ne_eq, hne, not_false_eq_true, true_and]

/-- The text of a setting denotes a duration that is not zero, or its default is used. -/
theorem positive_durationOr_eq_ok_iff {field : String} {given : Option String} {default d : Duration} :
    (durationOr field given default >>= positive field) = .ok d ↔ Denotes given default d ∧ d.nanos ≠ 0 := by
  simp only [bind_eq_ok_iff, durationOr_eq_ok_iff, positive_eq_ok_iff]
  constructor
  · rintro ⟨d, hd, hpositive, rfl⟩
    exact ⟨hd, hpositive⟩
  · rintro ⟨hd, hpositive⟩
    exact ⟨d, hd, hpositive, rfl⟩

theorem exists_denotes_iff (given : Option String) (default : Duration) :
    (∃ d, Denotes given default d) ↔ ∀ text ∈ given, IsDuration text := by
  cases given with
  | none => simp [Denotes]
  | some text => simp [Denotes, IsDuration, Option.isSome_iff_exists]

theorem exists_positive_iff (given : Option String) (default : Duration) (h : default.nanos ≠ 0) :
    (∃ d, Denotes given default d ∧ d.nanos ≠ 0) ↔ ∀ text ∈ given, IsPositive text := by
  cases given with
  | none => simp [Denotes, h]
  | some text => simp [Denotes, IsPositive]

/-! ### The address -/

theorem resolveBaseUrl_eq_ok_iff {config : Config} {url : String} : resolveBaseUrl config = .ok url
    ↔ ∃ given, config.baseUrl = some given ∧ url = Text.trim given
      ∧ url ≠ "" ∧ Probe.isAbsolute url = true := by
  unfold resolveBaseUrl
  cases config.baseUrl with
  | none => simp
  | some given =>
      simp only [Option.map_some, Option.some.injEq, exists_eq_left']
      split
      · next hempty =>
          simp only [reduceCtorEq, false_iff]
          rintro ⟨rfl, hne, -⟩
          exact hne hempty
      · next hne =>
          split
          · next habsolute =>
              simp only [Except.ok.injEq]
              constructor
              · rintro rfl
                exact ⟨rfl, hne, habsolute⟩
              · exact fun h => h.1.symm
          · next hrelative =>
              simp only [reduceCtorEq, false_iff]
              rintro ⟨rfl, -, habsolute⟩
              exact hrelative habsolute

/-! ### The scenario -/

theorem check_range_eq_ok_iff {range : IdRange} : range.check = .ok () ↔ range.start ≤ range.stop := by
  unfold IdRange.check
  split
  · next h => simpa using h
  · next h => simpa using h

theorem check_skewed_eq_ok_iff {hot cold : IdRange} {probability : Binary64} :
    (Workload.skewed hot cold probability).check = .ok () ↔ (0 ≤ probability ∧ probability ≤ 1)
      ∧ hot.start ≤ hot.stop ∧ cold.start ≤ cold.stop := by
  rw [Workload.check]
  split
  · next h =>
      rw [and_iff_right h, bind_eq_ok_iff, ← check_range_eq_ok_iff, ← check_range_eq_ok_iff]
      exact ⟨fun ⟨_, hhot, hcold⟩ => ⟨hhot, hcold⟩, fun ⟨hhot, hcold⟩ => ⟨(), hhot, hcold⟩⟩
  · next h => simp [h]

/-- How user identities are drawn where some of it may be left out. -/
def jitterOf (ids : Option UserIds) : Jitter where
  baseModulo := (ids.bind (·.baseModulo)).getD 10000
  jitterMax := (ids.bind (·.jitterMax)).getD 10
  multiplier := (ids.bind (·.multiplier)).getD 10000

/-- Which targets are asked for where some of it may be left out: twenty hot ones in four of five requests. -/
def skewOf (hot cold : Option IdRange) (probability : Option Binary64) : Workload :=
  .skewed (hot.getD ⟨1, 20⟩) (cold.getD ⟨21, 100⟩) (probability.getD 0.8)

/-- A scenario entry stands for a scenario with its workload, and for the target whose stock is used up. -/
inductive ScenarioEntry.Stands : ScenarioEntry → Scenario → Workload → UInt64 → Prop where
  | couponIssue (couponId : Option UInt64) {userIds : Option UserIds}
      (fits : (jitterOf userIds).check = .ok ()) :
      Stands (.couponIssue couponId userIds) .couponIssue
        (.shared (couponId.getD 1) (jitterOf userIds)) (couponId.getD 1)
  | popularProducts {hot cold : Option IdRange} {probability : Option Binary64} {given : Option String}
      {threshold : Duration}
      (fits : (skewOf hot cold probability).check = .ok ()) (denotes : Denotes given (.ofMillis 50) threshold) :
      Stands (.popularProducts hot cold probability given) (.popularProducts threshold)
        (skewOf hot cold probability) 0

theorem resolveScenario_eq_ok_iff {entry : ScenarioEntry} {scenario : Scenario} {workload : Workload}
    {target : UInt64} : resolveScenario entry = .ok (scenario, workload, target)
      ↔ entry.Stands scenario workload target := by
  cases entry with
  | couponIssue couponId userIds =>
      have hresolve : resolveScenario (.couponIssue couponId userIds)
          = (do
            (Workload.shared (couponId.getD 1) (jitterOf userIds)).check
            pure (.couponIssue, .shared (couponId.getD 1) (jitterOf userIds), couponId.getD 1)) := by
        cases userIds <;> rfl
      simp only [hresolve, bind_eq_ok_iff, pure_eq_ok_iff, Prod.mk.injEq]
      constructor
      · rintro ⟨⟨⟩, fits, rfl, rfl, rfl⟩
        exact .couponIssue couponId fits
      · intro stands
        cases stands with
        | couponIssue _ fits => exact ⟨(), fits, rfl, rfl, rfl⟩
  | popularProducts hot cold probability given =>
      simp only [resolveScenario, bind_eq_ok_iff, pure_eq_ok_iff, Prod.mk.injEq, durationOr_eq_ok_iff]
      constructor
      · rintro ⟨⟨⟩, fits, threshold, denotes, rfl, rfl, rfl⟩
        exact .popularProducts fits denotes
      · intro stands
        cases stands with
        | popularProducts fits denotes => exact ⟨(), fits, _, denotes, rfl, rfl, rfl⟩

/-! ### The schedule -/

/-- An entry of the schedule and its stage. -/
def StageEntry.Stands (entry : StageEntry) (stage : Stage) : Prop :=
  Duration.ofText? entry.duration = some stage.duration ∧ entry.target = stage.target

/-- The stages of a list of entries; without a list, those that are used if nothing else is said. -/
def Staged (given : Option (List StageEntry)) (stages : List Stage) : Prop :=
  match given with
  | some entries => List.Forall₂ StageEntry.Stands entries stages
  | none => stages = usualStages

theorem resolveStage_eq_ok_iff {entry : StageEntry} {index : Nat} {stage : Stage} :
    resolveStage (entry, index) = .ok stage ↔ entry.Stands stage := by
  simp only [resolveStage, bind_eq_ok_iff, duration_eq_ok_iff, StageEntry.Stands]
  constructor
  · rintro ⟨length, hlength, hstage⟩
    split at hstage
    · cases hstage
    · next htarget =>
        cases hstage
        exact ⟨hlength, (Int.toNat_of_nonneg (Int.not_lt.mp htarget)).symm⟩
  · rintro ⟨hlength, htarget⟩
    refine ⟨stage.duration, hlength, ?_⟩
    rw [if_neg (by omega), htarget, Int.toNat_natCast]

theorem ofStages_eq_ok_iff {stages : List Stage} {schedule : Schedule} :
    Schedule.ofStages stages = .ok schedule ↔ schedule.stages = stages := by
  unfold Schedule.ofStages
  split
  · next h =>
      simp only [reduceCtorEq, false_iff, h]
      exact schedule.nonempty
  · next h =>
      split
      · simp only [Except.ok.injEq]
        constructor
        · rintro rfl
          rfl
        · rintro rfl
          rfl
      · next hlong =>
          simp only [reduceCtorEq, false_iff]
          rintro rfl
          exact hlong schedule.fits

/-- Positions in the list only matter to errors. -/
theorem forall₂_zipIdx_iff {entries : List StageEntry} {stages : List Stage} (n : Nat) :
    List.Forall₂ (fun entry stage => resolveStage entry = .ok stage) (entries.zipIdx n) stages
      ↔ List.Forall₂ StageEntry.Stands entries stages := by
  induction entries generalizing n stages with
  | nil => simp
  | cons entry rest ih =>
      simp only [List.zipIdx_cons, List.forall₂_cons_left_iff, resolveStage_eq_ok_iff, ih]

theorem resolveSchedule_eq_ok_iff {given : Option (List StageEntry)} {schedule : Schedule} :
    resolveSchedule given = .ok schedule ↔ Staged given schedule.stages := by
  cases given with
  | none => exact ofStages_eq_ok_iff
  | some entries =>
      simp only [resolveSchedule, bind_eq_ok_iff, mapM_eq_ok_iff, ofStages_eq_ok_iff, Staged,
        forall₂_zipIdx_iff]
      exact ⟨fun ⟨_, h, heq⟩ => heq ▸ h, fun h => ⟨_, h, rfl⟩⟩

/-! ### Thresholds -/

/-- The expression of an entry and its description. -/
def ThresholdEntry.parts : ThresholdEntry → String × Option String
  | .bare expression => (expression, none)
  | .described expression description => (expression, description)

/-- The criteria that are given, or those of the scenario: metric, expression and description. -/
def criteria (scenario : Scenario) : Option (Table (List ThresholdEntry)) →
    List (String × String × Option String)
  | some table => table.entries.flatMap fun (metric, entries) => entries.map fun entry =>
      (metric, entry.parts)
  | none => (usual scenario).criteria.map fun (metric, source) => (metric, source, none)

/-- A criterion as it is given, and as it is read. -/
def Reads (given : String × String × Option String) (spec : Spec) : Prop :=
  spec.metric = given.1 ∧ Text.Core given.2.1 spec.source
    ∧ Expression.ofText? given.2.1 = .ok spec.expression ∧ spec.description = given.2.2

theorem ofText?_eq_ok_iff {given : String × String × Option String} {spec : Spec} :
    Spec.ofText? given.1 given.2.1 given.2.2 = .ok spec ↔ Reads given spec := by
  obtain ⟨metric, source, description⟩ := given
  simp only [Spec.ofText?, Reads, Text.core_iff]
  cases Expression.ofText? source with
  | error fault => simp
  | ok expression =>
      obtain ⟨metric', source', expression', description'⟩ := spec
      simp only [Except.ok.injEq, Spec.mk.injEq]
      constructor
      · rintro ⟨rfl, rfl, rfl, rfl⟩
        exact ⟨rfl, rfl, rfl, rfl⟩
      · rintro ⟨rfl, rfl, rfl, rfl⟩
        exact ⟨rfl, rfl, rfl, rfl⟩

theorem resolveThresholds_eq_ok_iff {scenario : Scenario} {given : Option (Table (List ThresholdEntry))}
    {specs : List Spec} :
    resolveThresholds scenario given = .ok specs ↔ List.Forall₂ Reads (criteria scenario given) specs := by
  have hreads : Reads = fun given spec => Spec.ofText? given.1 given.2.1 given.2.2 = .ok spec := by
    funext given spec
    exact propext ofText?_eq_ok_iff.symm
  rw [hreads, ← mapM_eq_ok_iff]
  cases given with
  | none =>
      rw [resolveThresholds, criteria, usual_eq, List.mapM_map]
      rfl
  | some table =>
      have hentry : ∀ metric, (fun entry : ThresholdEntry => entry.resolve metric)
          = fun entry => Spec.ofText? metric entry.parts.1 entry.parts.2 := fun metric => by
        funext entry
        cases entry <;> rfl
      simp only [resolveThresholds, criteria, mapM_flatMap, List.mapM_map, hentry]
      rfl

/-- A plan has only criteria on what its scenario records, and on what series of its kind have. -/
theorem checkThresholds_eq_ok_iff {plan : Plan} : plan.checkThresholds = .ok () ↔ ∀ spec ∈ plan.thresholds,
    ∃ kind, (spec.metric, kind) ∈ plan.scenario.catalog ∧ spec.expression.aggregate.appliesTo kind = true := by
  have hkind (metric : String) (kind : Kind) :
      plan.scenario.kindOf? metric = some kind ↔ (metric, kind) ∈ plan.scenario.catalog :=
    ⟨Outcome.mem_catalog_of_kindOf?, Outcome.kindOf?_of_mem_catalog⟩
  simp only [Plan.checked_iff, hkind, Spec.check_eq_ok_iff]

/-! ### Pauses and limits -/

/-- The pause of an entry; without one, that of the scenario. -/
def Paused (scenario : Scenario) (given : Option ThinkTimeEntry) (pause : ThinkTime) : Prop :=
  match given with
  | some entry => Duration.ofText? entry.min = some pause.min ∧ Duration.ofText? entry.max = some pause.max
      ∧ pause.min ≤ pause.max
  | none => pause = (usual scenario).pause

theorem resolveThinkTime_eq_ok_iff {scenario : Scenario} {given : Option ThinkTimeEntry} {pause : ThinkTime} :
    resolveThinkTime scenario given = .ok pause ↔ Paused scenario given pause := by
  cases given with
  | none =>
      simp only [resolveThinkTime, Paused, usual_eq, Except.ok.injEq]
      exact eq_comm
  | some entry =>
      simp only [resolveThinkTime, Paused, bind_eq_ok_iff, duration_eq_ok_iff, ThinkTime.ofBounds_eq_ok_iff]
      constructor
      · rintro ⟨min, hmin, max, hmax, hle, rfl⟩
        exact ⟨hmin, hmax, hle⟩
      · rintro ⟨hmin, hmax, hle⟩
        exact ⟨_, hmin, _, hmax, hle, rfl⟩

theorem resolveIterations_eq_ok_iff {given limit : Option UInt64} :
    resolveIterations given = .ok limit ↔ given ≠ some 0 ∧ limit = given := by
  cases given with
  | none => simp [resolveIterations, eq_comm]
  | some n =>
      simp only [resolveIterations]
      split
      · next hzero => simp [hzero]
      · next hne => simp [hne, eq_comm]

theorem mapM_duration_eq_ok_iff {field : String} {given : Option String} {setting : Option Duration} :
    given.mapM (duration field) = .ok setting ↔ given.map Duration.ofText? = setting.map some := by
  cases given with
  | none =>
      show (pure none : Except ConfigError (Option Duration)) = .ok setting ↔ _
      cases setting <;> simp [pure_eq_ok_iff]
  | some text =>
      show some <$> duration field text = .ok setting ↔ _
      simp only [map_eq_ok_iff, duration_eq_ok_iff, Option.map_some]
      cases setting <;> simp

/-! ### Probes -/

/-- The path that has to answer before a run is the one that is given, unless it is blank; where none is given, it is
the usual one. -/
inductive HealthAt (scenario : Scenario) : Option String → Option String → Prop where
  | off {path : String} (blank : Text.Blanks path.toList) : HealthAt scenario (some path) none
  | given {path : String} {c : Char} (mem : c ∈ path.toList) (visible : Text.isBlank c = false) :
      HealthAt scenario (some path) (some path)
  | omitted : HealthAt scenario none (usual scenario).healthCheck

theorem healthAt_iff {scenario : Scenario} {given healthCheck : Option String} :
    HealthAt scenario given healthCheck ↔ healthCheck = resolveHealthCheck scenario given := by
  constructor
  · intro h
    cases h with
    | @off path blank =>
        have hblank : Text.isAllBlank path = true := List.all_eq_true.mpr blank
        rw [resolveHealthCheck, if_pos hblank]
    | @given path c mem visible =>
        have hvisible : ¬ Text.isAllBlank path = true := by
          intro blank
          cases visible.symm.trans (List.all_eq_true.mp blank c mem)
        rw [resolveHealthCheck, if_neg hvisible]
    | omitted => rw [resolveHealthCheck, usual_eq]
  · rintro rfl
    cases given with
    | none =>
        have h : HealthAt scenario none (usual scenario).healthCheck := .omitted
        rwa [usual_eq] at h
    | some path =>
        rw [resolveHealthCheck]
        split
        · next blank => exact .off (List.all_eq_true.mp blank)
        · next hvisible =>
            obtain ⟨c, mem, visible⟩ := List.all_eq_false.mp (eq_false_of_ne_true hvisible)
            exact .given mem (eq_false_of_ne_true visible)

/-- Where a run of a scenario on a target looks up the stock, if it does. -/
inductive StockAt : Scenario → UInt64 → Option InventoryEntry → Option InventoryProbe → Prop where
  | off {scenario : Scenario} {target : UInt64} {entry : InventoryEntry} (disabled : entry.enabled = some false) :
      StockAt scenario target (some entry) none
  | given {scenario : Scenario} {target : UInt64} {entry : InventoryEntry} {path : String}
      (enabled : entry.enabled ≠ some false) (path_eq : entry.path = some path) :
      StockAt scenario target (some entry) (some ⟨path, entry.field.getD "quantity"⟩)
  /-- Each coupon has a path of its own. -/
  | coupon {target : UInt64} {given : Option InventoryEntry}
      (enabled : ∀ entry ∈ given, entry.enabled ≠ some false ∧ entry.path = none) :
      StockAt .couponIssue target given
        (some ⟨"/api/coupons/" ++ toString target, (given.bind (·.field)).getD "quantity"⟩)
  /-- Products are not used up. -/
  | nowhere {threshold : Duration} {target : UInt64} {given : Option InventoryEntry}
      (unnamed : ∀ entry ∈ given, entry.path = none) : StockAt (.popularProducts threshold) target given none

theorem stockAt_iff {scenario : Scenario} {target : UInt64} {given : Option InventoryEntry}
    {inventory : Option InventoryProbe} :
    StockAt scenario target given inventory ↔ inventory = resolveInventory scenario target given := by
  constructor
  · intro h
    cases h with
    | off disabled => simp [resolveInventory, disabled]
    | given enabled path_eq => simp [resolveInventory, enabled, path_eq]
    | coupon enabled =>
        cases given with
        | none => rfl
        | some entry => simp [resolveInventory, enabled entry rfl, Scenario.defaultInventoryPath?]
    | nowhere unnamed =>
        cases given with
        | none => rfl
        | some entry => simp [resolveInventory, unnamed entry rfl, Scenario.defaultInventoryPath?]
  · rintro rfl
    cases given with
    | none =>
        cases scenario with
        | couponIssue => exact .coupon (by simp)
        | popularProducts threshold => exact .nowhere (by simp)
    | some entry =>
        by_cases disabled : entry.enabled = some false
        · have hnone : resolveInventory scenario target (some entry) = none := if_pos disabled
          rw [hnone]
          exact .off disabled
        · have hprobe : resolveInventory scenario target (some entry)
              = (entry.path.or (scenario.defaultInventoryPath? target)).map fun path =>
                ⟨path, entry.field.getD "quantity"⟩ := if_neg disabled
          rw [hprobe]
          cases hpath : entry.path with
          | some path => exact .given disabled hpath
          | none =>
              cases scenario with
              | couponIssue => exact .coupon (by simp [disabled, hpath])
              | popularProducts threshold => exact .nowhere (by simp [hpath])

/-! ### The plan -/

/-- The tags of a plan: those of the configuration, and two more where it does not give them. -/
def allTags (scenario : Scenario) (given : Option (Table String)) (key : String) : Option String :=
  (given.bind (·.find? key)).or
    (if key = "environment" then some "loadtest"
      else if key = "test_scenario" then some (usual scenario).name else none)

/-- The tags of a plan as they are put together: those of the configuration come last. -/
def gatherTags (scenario : Scenario) (given : Option (Table String)) : Table String :=
  let own := (Table.empty.insert "test_scenario" scenario.name).insert "environment" "loadtest"
  match given with
  | some more => more.entries.foldl (fun (tags : Table String) entry => tags.insert entry.1 entry.2) own
  | none => own

theorem find?_gatherTags (scenario : Scenario) (given : Option (Table String)) (key : String) :
    (gatherTags scenario given).find? key = allTags scenario given key := by
  cases given with
  | none => simp [gatherTags, allTags, usual_eq, Table.find?_insert]
  | some more =>
      simp only [gatherTags, Table.find?_foldl_insert more.nodup_keys, allTags, Table.find?_insert,
        Table.find?_empty, Option.bind_some, usual_eq]
      rfl

/-- **Each part of a plan, and the setting that it comes from.** -/
structure Resolved (config : Config) (plan : Plan) : Prop where
  baseUrl : resolveBaseUrl config = .ok plan.baseUrl
  scenario : ∃ entry target, config.scenario = some entry
    ∧ resolveScenario entry = .ok (plan.scenario, plan.workload, target)
    ∧ plan.inventory = resolveInventory plan.scenario target config.inventory
  schedule : resolveSchedule config.stages = .ok plan.schedule
  thresholds : resolveThresholds plan.scenario config.thresholds = .ok plan.thresholds
  checked : plan.checkThresholds = .ok ()
  thinkTime : resolveThinkTime plan.scenario config.thinkTime = .ok plan.thinkTime
  requestTimeout : (durationOr "request_timeout" config.requestTimeout Plan.defaultRequestTimeout
    >>= positive "request_timeout") = .ok plan.requestTimeout
  tick : (durationOr "tick" config.tick Plan.defaultTick >>= positive "tick") = .ok plan.tick
  gracefulStop : durationOr "stop" config.stop Plan.defaultGracefulStop = .ok plan.gracefulStop
  thresholdInterval : (durationOr "threshold_interval" config.thresholdInterval Plan.defaultThresholdInterval
    >>= positive "threshold_interval") = .ok plan.thresholdInterval
  iterations : resolveIterations config.iterations = .ok plan.iterations
  abortDelay : config.abortDelay.mapM (duration "abort_delay") = .ok plan.abortDelaySetting
  abortOnFail : plan.abortOnFail = config.abortOnFail.getD false
  healthCheck : plan.healthCheck = resolveHealthCheck plan.scenario config.healthCheck
  warmup : plan.warmup = config.warmup
  tags : ∀ key, plan.tags.find? key = allTags plan.scenario config.tags key

/-- Every setting is resolved on its own. -/
theorem resolve_eq_ok_iff {config : Config} {plan : Plan} :
    config.resolve = .ok plan ↔ Resolved config plan := by
  unfold resolve
  constructor
  · intro h
    cases hentry : config.scenario with
    | none =>
        simp only [hentry, bind_eq_ok_iff] at h
        obtain ⟨url, -, entry, hnone, -⟩ := h
        cases hnone
    | some entry =>
        simp only [hentry, bind_eq_ok_iff, pure_eq_ok_iff, Prod.exists] at h
        obtain ⟨url, baseUrl, _, ⟨⟩, scenario, workload, target, hscenario, schedule, hschedule, specs,
          thresholds, ⟨⟩, checked, pause, thinkTime, _, givenTimeout, timeout, hasTimeout, _, givenTick, tick,
          hasTick, stop, gracefulStop, _, givenInterval, interval, hasInterval, limit, iterations, delay,
          abortDelay, rfl⟩ := h
        exact {
          baseUrl, thresholds, checked, thinkTime, gracefulStop, iterations, abortDelay
          scenario := ⟨entry, target, hentry, hscenario, rfl⟩
          schedule := hschedule
          requestTimeout := bind_eq_ok_iff.mpr ⟨_, givenTimeout, hasTimeout⟩
          tick := bind_eq_ok_iff.mpr ⟨_, givenTick, hasTick⟩
          thresholdInterval := bind_eq_ok_iff.mpr ⟨_, givenInterval, hasInterval⟩
          abortOnFail := rfl
          healthCheck := rfl
          warmup := rfl
          tags := find?_gatherTags scenario config.tags }
  · intro h
    obtain ⟨entry, target, hentry, hscenario, hinventory⟩ := h.scenario
    obtain ⟨_, givenTimeout, hasTimeout⟩ := bind_eq_ok_iff.mp h.requestTimeout
    obtain ⟨_, givenTick, hasTick⟩ := bind_eq_ok_iff.mp h.tick
    obtain ⟨_, givenInterval, hasInterval⟩ := bind_eq_ok_iff.mp h.thresholdInterval
    have htags := Table.ext_find? fun key =>
      (find?_gatherTags plan.scenario config.tags key).trans (h.tags key).symm
    simp only [hentry, bind_eq_ok_iff, pure_eq_ok_iff, Prod.exists]
    refine ⟨_, h.baseUrl, _, rfl, _, _, _, hscenario, _, h.schedule, _, h.thresholds, (), h.checked, _,
      h.thinkTime, _, givenTimeout, _, hasTimeout, _, givenTick, _, hasTick, _, h.gracefulStop, _,
      givenInterval, _, hasInterval, _, h.iterations, _, h.abortDelay, ?_⟩
    rw [← h.abortOnFail, ← h.healthCheck, ← h.warmup, ← hinventory]
    refine Eq.trans ?_ (congrArg (fun tags => { plan with tags }) htags)
    rfl

end LoadTest.Config
