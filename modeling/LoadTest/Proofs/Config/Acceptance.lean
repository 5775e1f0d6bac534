import LoadTest.Proofs.Config.Resolve

/-!
# LoadTest.Proofs.Config.Acceptance

Which configurations can be run. **A configuration is accepted exactly if it is valid**
(`accepted_iff_valid`), which is said here of each setting on its own: what is left out is never a fault,
apart from address and scenario. What is accepted becomes the one plan that has every given setting, and for
the others what is usual.
-/

namespace LoadTest.Config

open LoadTest.Metric Threshold

/-! ### Valid settings -/

/-- The address of a target, with blanks around it, names a web scheme. -/
def ValidAddress (given : String) : Prop :=
  ∃ url, Text.Core given url ∧ url ≠ "" ∧ ("http://".toList <+: url.toList ∨ "https://".toList <+: url.toList)

/-- What a scenario has to make sense: identities of 64 bits, or a probability and ranges that are not empty. -/
def ScenarioEntry.Valid : ScenarioEntry → Prop
  | .couponIssue _ userIds =>
      let jitter := jitterOf userIds
      0 < jitter.baseModulo.toNat
        ∧ jitter.baseModulo.toNat + jitter.jitterMax.toNat * jitter.multiplier.toNat ≤ 2 ^ 64 - 1
  | .popularProducts hot cold hotProbability cacheHitThreshold =>
      let probability := hotProbability.getD 0.8
      let hot := hot.getD ⟨1, 20⟩
      let cold := cold.getD ⟨21, 100⟩
      0 ≤ probability ∧ probability ≤ 1 ∧ hot.start ≤ hot.stop ∧ cold.start ≤ cold.stop
        ∧ ∀ text ∈ cacheHitThreshold, IsDuration text

/-- The series that a run of a scenario entry records. -/
def ScenarioEntry.catalog : ScenarioEntry → List (String × Kind)
  | .couponIssue .. => Scenario.couponIssue.catalog
  | .popularProducts .. => (Scenario.popularProducts Scenario.defaultCacheHitThreshold).catalog

/-- Stages last for durations that add up to one, and none asks for less than nobody. -/
structure ValidStages (entries : List StageEntry) : Prop where
  nonempty : entries ≠ []
  targets : ∀ entry ∈ entries, 0 ≤ entry.target
  durations : ∃ durations,
    List.Forall₂ (fun entry d => Duration.ofText? entry.duration = some d) entries durations
      ∧ Duration.totalNanos durations < Duration.limit

/-- A criterion, as it is given, can be read, is on a series of a catalog, and has an aggregate of such
series. -/
def ValidCriterion (catalog : List (String × Kind)) (given : String × String × Option String) : Prop :=
  ∃ expression kind, Expression.ofText? given.2.1 = .ok expression ∧ (given.1, kind) ∈ catalog
    ∧ expression.aggregate.appliesTo kind = true

/-- The bounds of a pause are durations in order. -/
def ValidThinkTime (entry : ThinkTimeEntry) : Prop :=
  ∃ min max, Duration.ofText? entry.min = some min ∧ Duration.ofText? entry.max = some max ∧ min ≤ max

/-- **A configuration that makes sense.** -/
structure Valid (config : Config) : Prop where
  baseUrl : ∃ url, config.baseUrl = some url ∧ ValidAddress url
  scenario : ∃ entry, config.scenario = some entry ∧ entry.Valid
  stages : ∀ entries ∈ config.stages, ValidStages entries
  thresholds : ∀ entry ∈ config.scenario, ∀ table ∈ config.thresholds, ∀ entries ∈ table.entries,
    ∀ threshold ∈ entries.2, ValidCriterion entry.catalog (entries.1, threshold.parts)
  thinkTime : ∀ entry ∈ config.thinkTime, ValidThinkTime entry
  requestTimeout : ∀ text ∈ config.requestTimeout, IsPositive text
  tick : ∀ text ∈ config.tick, IsPositive text
  thresholdInterval : ∀ text ∈ config.thresholdInterval, IsPositive text
  stop : ∀ text ∈ config.stop, IsDuration text
  abortDelay : ∀ text ∈ config.abortDelay, IsDuration text
  iterations : config.iterations ≠ some 0

/-! ### What an accepted setting becomes -/

theorem isAbsolute_iff {url : String} :
    Probe.isAbsolute url = true ↔ "http://".toList <+: url.toList ∨ "https://".toList <+: url.toList := by
  rw [Probe.isAbsolute, Bool.or_eq_true, List.isPrefixOf_iff_prefix, List.isPrefixOf_iff_prefix]

theorem exists_baseUrl_iff {config : Config} : (∃ url, resolveBaseUrl config = .ok url)
    ↔ ∃ given, config.baseUrl = some given ∧ ValidAddress given := by
  simp only [resolveBaseUrl_eq_ok_iff, isAbsolute_iff, ValidAddress, Text.core_iff]
  constructor
  · rintro ⟨url, given, hgiven, hurl, valid⟩
    exact ⟨given, hgiven, url, hurl, valid⟩
  · rintro ⟨given, hgiven, url, hurl, valid⟩
    exact ⟨url, given, hgiven, hurl, valid⟩

/-- A valid entry stands for a scenario, and no other does. -/
theorem exists_stands_iff {entry : ScenarioEntry} :
    (∃ scenario workload target, entry.Stands scenario workload target) ↔ entry.Valid := by
  have hlimit (n : Nat) : n < UInt64.size ↔ n ≤ 2 ^ 64 - 1 := Nat.lt_iff_le_pred (by decide)
  cases entry with
  | couponIssue couponId userIds =>
      have hfits : (jitterOf userIds).check = .ok () ↔ (ScenarioEntry.couponIssue couponId userIds).Valid := by
        rw [Jitter.check_eq_ok_iff, ScenarioEntry.Valid, hlimit]
      rw [← hfits]
      constructor
      · rintro ⟨_, _, _, stands⟩
        cases stands with
        | couponIssue _ fits => exact fits
      · exact fun fits => ⟨_, _, _, .couponIssue couponId fits⟩
  | popularProducts hot cold probability given =>
      rw [ScenarioEntry.Valid]
      simp only [← exists_denotes_iff given (.ofMillis 50)]
      constructor
      · rintro ⟨_, _, _, stands⟩
        cases stands with
        | popularProducts fits denotes =>
            obtain ⟨⟨hzero, hone⟩, hhot, hcold⟩ := check_skewed_eq_ok_iff.mp fits
            exact ⟨hzero, hone, hhot, hcold, _, denotes⟩
      · rintro ⟨hzero, hone, hhot, hcold, threshold, denotes⟩
        exact ⟨_, _, _, .popularProducts (check_skewed_eq_ok_iff.mpr ⟨⟨hzero, hone⟩, hhot, hcold⟩) denotes⟩

theorem ScenarioEntry.Stands.catalog_eq {entry : ScenarioEntry} {scenario : Scenario} {workload : Workload}
    {target : UInt64} (stands : entry.Stands scenario workload target) : scenario.catalog = entry.catalog := by
  cases stands <;> rfl

/-- Where the durations of entries are known, so are their stages. -/
theorem exists_stages {entries : List StageEntry} {durations : List Duration}
    (targets : ∀ entry ∈ entries, 0 ≤ entry.target)
    (h : List.Forall₂ (fun entry d => Duration.ofText? entry.duration = some d) entries durations) :
    ∃ stages, List.Forall₂ StageEntry.Stands entries stages ∧ stages.map (·.duration) = durations := by
  induction h with
  | nil => exact ⟨[], .nil, rfl⟩
  | @cons entry d entries durations hd _ ih =>
      obtain ⟨htarget, hrest⟩ := List.forall_mem_cons.mp targets
      obtain ⟨stages, hstages, hdurations⟩ := ih hrest
      refine ⟨⟨d, entry.target.toNat⟩ :: stages, .cons ⟨hd, (Int.toNat_of_nonneg htarget).symm⟩ hstages, ?_⟩
      rw [List.map_cons, hdurations]

theorem exists_schedule_iff {given : Option (List StageEntry)} :
    (∃ schedule, resolveSchedule given = .ok schedule) ↔ ∀ entries ∈ given, ValidStages entries := by
  simp only [resolveSchedule_eq_ok_iff]
  cases given with
  | none =>
      have hdefault : ∃ schedule : Schedule, schedule.stages = usualStages :=
        ⟨⟨usualStages, by decide, by decide⟩, rfl⟩
      simpa [Staged] using hdefault
  | some entries =>
      simp only [Staged, Option.mem_def, Option.some.injEq, forall_eq']
      constructor
      · rintro ⟨schedule, stands⟩
        refine ⟨?_, ?_, schedule.stages.map (·.duration), ?_, schedule.fits⟩
        · rintro rfl
          exact schedule.nonempty (List.forall₂_nil_left_iff.mp stands)
        · intro entry mem
          obtain ⟨stage, ⟨-, htarget⟩, -⟩ := exists_forall₂_iff.mp ⟨_, stands, fun _ _ => trivial⟩ entry mem
          omega
        · exact List.forall₂_map_right_iff.mpr (stands.imp fun _ _ h => h.1)
      · rintro ⟨nonempty, targets, durations, hdurations, fits⟩
        obtain ⟨stages, stands, rfl⟩ := exists_stages targets hdurations
        have hsome : stages ≠ [] := by
          rintro rfl
          exact nonempty (List.forall₂_nil_right_iff.mp stands)
        exact ⟨⟨stages, hsome, fits⟩, stands⟩

/-! ### Thresholds -/

/-- Whether an expression on a metric can be read, and there will be such a value. -/
def accepts (catalog : List (String × Kind)) (metric source : String) : Bool :=
  match Expression.ofText? source with
  | .ok expression => catalog.any fun series =>
      decide (series.1 = metric) && expression.aggregate.appliesTo series.2
  | .error _ => false

theorem validCriterion_of_accepts {catalog : List (String × Kind)} {given : String × String × Option String}
    (h : accepts catalog given.1 given.2.1 = true) : ValidCriterion catalog given := by
  unfold accepts at h
  cases hread : Expression.ofText? given.2.1 with
  | error fault => simp [hread] at h
  | ok expression =>
      simp only [hread, List.any_eq_true, Bool.and_eq_true, decide_eq_true_eq] at h
      obtain ⟨⟨metric, kind⟩, mem, rfl, happlies⟩ := h
      exact ⟨expression, kind, hread, mem, happlies⟩

/-- The criteria of each scenario are valid. -/
theorem validCriterion_default (scenario : Scenario) : ∀ given ∈ criteria scenario none,
    ValidCriterion scenario.catalog given := by
  have hall : (criteria scenario none).all fun given => accepts scenario.catalog given.1 given.2.1 := by
    cases scenario with
    | couponIssue => decide +kernel
    | popularProducts threshold =>
        -- Neither the criteria nor the catalog hang on the threshold.
        exact show (criteria (.popularProducts .zero) none).all fun given =>
          accepts (Scenario.popularProducts .zero).catalog given.1 given.2.1 by decide +kernel
  exact fun given mem => validCriterion_of_accepts (List.all_eq_true.mp hall given mem)

theorem exists_reads_iff {catalog : List (String × Kind)} {given : String × String × Option String} :
    (∃ spec, Reads given spec ∧ ∃ kind, (spec.metric, kind) ∈ catalog
        ∧ spec.expression.aggregate.appliesTo kind = true)
      ↔ ValidCriterion catalog given := by
  constructor
  · rintro ⟨spec, ⟨hmetric, -, hread, -⟩, kind, mem, happlies⟩
    exact ⟨spec.expression, kind, hread, hmetric ▸ mem, happlies⟩
  · rintro ⟨expression, kind, hread, mem, happlies⟩
    exact ⟨⟨given.1, Text.trim given.2.1, expression, given.2.2⟩, ⟨rfl, Text.core_iff.mpr rfl, hread, rfl⟩, kind, mem,
      happlies⟩

theorem exists_thresholds_iff {scenario : Scenario} {given : Option (Table (List ThresholdEntry))} :
    (∃ specs, resolveThresholds scenario given = .ok specs
        ∧ ∀ spec ∈ specs, ∃ kind, (spec.metric, kind) ∈ scenario.catalog
          ∧ spec.expression.aggregate.appliesTo kind = true)
      ↔ ∀ table ∈ given, ∀ entries ∈ table.entries, ∀ threshold ∈ entries.2,
        ValidCriterion scenario.catalog (entries.1, threshold.parts) := by
  simp only [resolveThresholds_eq_ok_iff, exists_forall₂_iff, exists_reads_iff]
  cases given with
  | none => simpa using validCriterion_default scenario
  | some table =>
      simp only [criteria, List.mem_flatMap, List.mem_map, Option.mem_def, Option.some.injEq, forall_eq']
      constructor
      · intro h entries mem threshold hthreshold
        exact h _ ⟨entries, mem, threshold, hthreshold, rfl⟩
      · rintro h _ ⟨entries, mem, threshold, hthreshold, rfl⟩
        exact h entries mem threshold hthreshold

/-! ### Pauses and limits -/

theorem exists_thinkTime_iff (scenario : Scenario) {given : Option ThinkTimeEntry} :
    (∃ pause, resolveThinkTime scenario given = .ok pause) ↔ ∀ entry ∈ given, ValidThinkTime entry := by
  simp only [resolveThinkTime_eq_ok_iff]
  cases given with
  | none => simp [Paused]
  | some entry =>
      simp only [Paused, Option.mem_def, Option.some.injEq, forall_eq', ValidThinkTime]
      constructor
      · rintro ⟨pause, h⟩
        exact ⟨pause.min, pause.max, h⟩
      · rintro ⟨min, max, h⟩
        exact ⟨⟨min, max⟩, h⟩

theorem exists_iterations_iff {given : Option UInt64} :
    (∃ limit, resolveIterations given = .ok limit) ↔ given ≠ some 0 := by
  simp [resolveIterations_eq_ok_iff]

theorem exists_abortDelay_iff {given : Option String} :
    (∃ setting, given.mapM (duration "abort_delay") = .ok setting) ↔ ∀ text ∈ given, IsDuration text := by
  simp only [mapM_duration_eq_ok_iff]
  cases given with
  | none => simp
  | some text =>
      simp only [Option.map_some, Option.mem_def, Option.some.injEq, forall_eq', IsDuration,
        Option.isSome_iff_exists]
      constructor
      · rintro ⟨setting, h⟩
        cases setting with
        | none => simp at h
        | some d => exact ⟨d, by simpa using h⟩
      · rintro ⟨d, h⟩
        exact ⟨some d, by simp [h]⟩

/-! ### Acceptance -/

/-- A setting from which no plan comes is not valid. -/
theorem valid_of_resolved {config : Config} {plan : Plan} (h : Resolved config plan) : config.Valid := by
  obtain ⟨entry, target, hentry, hscenario, -⟩ := h.scenario
  have stands := resolveScenario_eq_ok_iff.mp hscenario
  exact {
    baseUrl := exists_baseUrl_iff.mp ⟨_, h.baseUrl⟩
    scenario := ⟨entry, hentry, exists_stands_iff.mp ⟨_, _, _, stands⟩⟩
    stages := exists_schedule_iff.mp ⟨_, h.schedule⟩
    thresholds := by
      intro entry' hentry'
      obtain rfl : entry = entry' := Option.some.inj (hentry.symm.trans hentry')
      rw [← stands.catalog_eq]
      exact exists_thresholds_iff.mp ⟨_, h.thresholds, checkThresholds_eq_ok_iff.mp h.checked⟩
    thinkTime := (exists_thinkTime_iff _).mp ⟨_, h.thinkTime⟩
    requestTimeout := (exists_positive_iff _ _ (by decide)).mp
      ⟨_, positive_durationOr_eq_ok_iff.mp h.requestTimeout⟩
    tick := (exists_positive_iff _ _ (by decide)).mp ⟨_, positive_durationOr_eq_ok_iff.mp h.tick⟩
    thresholdInterval := (exists_positive_iff _ _ (by decide)).mp
      ⟨_, positive_durationOr_eq_ok_iff.mp h.thresholdInterval⟩
    stop := (exists_denotes_iff _ _).mp ⟨_, durationOr_eq_ok_iff.mp h.gracefulStop⟩
    abortDelay := exists_abortDelay_iff.mp ⟨_, h.abortDelay⟩
    iterations := exists_iterations_iff.mp ⟨_, h.iterations⟩ }

/-- Settings that are valid one by one make a plan. -/
theorem exists_resolved {config : Config} (h : config.Valid) : ∃ plan, Resolved config plan := by
  obtain ⟨baseUrl, hbaseUrl⟩ := exists_baseUrl_iff.mpr h.baseUrl
  obtain ⟨entry, hentry, valid⟩ := h.scenario
  obtain ⟨scenario, workload, target, stands⟩ := exists_stands_iff.mpr valid
  obtain ⟨schedule, hschedule⟩ := exists_schedule_iff.mpr h.stages
  obtain ⟨thresholds, hthresholds, hchecked⟩ : ∃ specs, _ := exists_thresholds_iff.mpr <| by
    rw [stands.catalog_eq]
    exact h.thresholds entry hentry
  obtain ⟨thinkTime, hthinkTime⟩ := (exists_thinkTime_iff scenario).mpr h.thinkTime
  obtain ⟨requestTimeout, hrequestTimeout⟩ :=
    (exists_positive_iff _ Plan.defaultRequestTimeout (by decide)).mpr h.requestTimeout
  obtain ⟨tick, htick⟩ := (exists_positive_iff _ Plan.defaultTick (by decide)).mpr h.tick
  obtain ⟨thresholdInterval, hthresholdInterval⟩ :=
    (exists_positive_iff _ Plan.defaultThresholdInterval (by decide)).mpr h.thresholdInterval
  obtain ⟨gracefulStop, hgracefulStop⟩ := (exists_denotes_iff _ Plan.defaultGracefulStop).mpr h.stop
  obtain ⟨iterations, hiterations⟩ := exists_iterations_iff.mpr h.iterations
  obtain ⟨abortDelaySetting, habortDelay⟩ := exists_abortDelay_iff.mpr h.abortDelay
  exact ⟨{
    baseUrl, scenario, workload, schedule, thresholds, thinkTime, requestTimeout, tick, gracefulStop,
    iterations, abortDelaySetting, thresholdInterval
    abortOnFail := config.abortOnFail.getD false
    healthCheck := resolveHealthCheck scenario config.healthCheck
    warmup := config.warmup
    inventory := resolveInventory scenario target config.inventory
    tags := gatherTags scenario config.tags }, {
    baseUrl := hbaseUrl
    scenario := ⟨entry, target, hentry, resolveScenario_eq_ok_iff.mpr stands, rfl⟩
    schedule := hschedule
    thresholds := hthresholds
    checked := checkThresholds_eq_ok_iff.mpr hchecked
    thinkTime := hthinkTime
    requestTimeout := positive_durationOr_eq_ok_iff.mpr hrequestTimeout
    tick := positive_durationOr_eq_ok_iff.mpr htick
    gracefulStop := durationOr_eq_ok_iff.mpr hgracefulStop
    thresholdInterval := positive_durationOr_eq_ok_iff.mpr hthresholdInterval
    iterations := hiterations
    abortDelay := habortDelay
    abortOnFail := rfl
    healthCheck := rfl
    warmup := rfl
    tags := find?_gatherTags scenario config.tags }⟩

/-- **A plan that carries the settings of a configuration:** each is what the configuration gives, or else what is
usual. -/
structure Carries (config : Config) (plan : Plan) : Prop where
  baseUrl : ∃ given, config.baseUrl = some given ∧ Text.Core given plan.baseUrl
  scenario : ∃ entry target, config.scenario = some entry ∧ entry.Stands plan.scenario plan.workload target
    ∧ StockAt plan.scenario target config.inventory plan.inventory
  stages : Staged config.stages plan.schedule.stages
  thresholds : List.Forall₂ Reads (criteria plan.scenario config.thresholds) plan.thresholds
  /-- Each criterion will have a value. -/
  observable : ∀ spec ∈ plan.thresholds, ∃ kind, (spec.metric, kind) ∈ plan.scenario.catalog
    ∧ spec.expression.aggregate.appliesTo kind = true
  thinkTime : Paused plan.scenario config.thinkTime plan.thinkTime
  requestTimeout : Denotes config.requestTimeout (.ofSeconds 10) plan.requestTimeout
    ∧ plan.requestTimeout.nanos ≠ 0
  tick : Denotes config.tick (.ofMillis 100) plan.tick ∧ plan.tick.nanos ≠ 0
  gracefulStop : Denotes config.stop (.ofSeconds 30) plan.gracefulStop
  thresholdInterval : Denotes config.thresholdInterval (.ofSeconds 5) plan.thresholdInterval
    ∧ plan.thresholdInterval.nanos ≠ 0
  iterations : plan.iterations = config.iterations ∧ plan.iterations ≠ some 0
  abortOnFail : plan.abortOnFail = config.abortOnFail.getD false
  abortDelay : config.abortDelay.map Duration.ofText? = plan.abortDelaySetting.map some
  healthCheck : HealthAt plan.scenario config.healthCheck plan.healthCheck
  warmup : plan.warmup = config.warmup
  tags : ∀ key, plan.tags.find? key = allTags plan.scenario config.tags key

theorem Resolved.carries {config : Config} {plan : Plan} (h : Resolved config plan) : Carries config plan := by
  obtain ⟨entry, target, hentry, hscenario, hinventory⟩ := h.scenario
  obtain ⟨url, hurl, hbaseUrl, -⟩ := resolveBaseUrl_eq_ok_iff.mp h.baseUrl
  obtain ⟨hlimit, hiterations⟩ := resolveIterations_eq_ok_iff.mp h.iterations
  exact {
    baseUrl := ⟨url, hurl, Text.core_iff.mpr hbaseUrl⟩
    scenario := ⟨entry, target, hentry, resolveScenario_eq_ok_iff.mp hscenario, stockAt_iff.mpr hinventory⟩
    stages := resolveSchedule_eq_ok_iff.mp h.schedule
    thresholds := resolveThresholds_eq_ok_iff.mp h.thresholds
    observable := checkThresholds_eq_ok_iff.mp h.checked
    thinkTime := resolveThinkTime_eq_ok_iff.mp h.thinkTime
    requestTimeout := positive_durationOr_eq_ok_iff.mp h.requestTimeout
    tick := positive_durationOr_eq_ok_iff.mp h.tick
    gracefulStop := durationOr_eq_ok_iff.mp h.gracefulStop
    thresholdInterval := positive_durationOr_eq_ok_iff.mp h.thresholdInterval
    iterations := ⟨hiterations, hiterations ▸ hlimit⟩
    abortOnFail := h.abortOnFail
    abortDelay := mapM_duration_eq_ok_iff.mp h.abortDelay
    healthCheck := healthAt_iff.mpr h.healthCheck
    warmup := h.warmup
    tags := h.tags }

/-- Nothing of a plan is open once its configuration is valid and carried. -/
theorem Valid.resolved {config : Config} (h : config.Valid) {plan : Plan} (carries : Carries config plan) :
    Resolved config plan := by
  obtain ⟨given, hgiven, url, hurl, hsome, hscheme⟩ := h.baseUrl
  obtain ⟨_, hsame, hbaseUrl⟩ := carries.baseUrl
  obtain rfl := Option.some.inj (hgiven.symm.trans hsame)
  obtain rfl : url = plan.baseUrl := (Text.core_iff.mp hurl).trans (Text.core_iff.mp hbaseUrl).symm
  obtain ⟨entry, target, hentry, stands, hstock⟩ := carries.scenario
  obtain ⟨hiterations, hlimit⟩ := carries.iterations
  exact {
    baseUrl := resolveBaseUrl_eq_ok_iff.mpr ⟨given, hgiven, Text.core_iff.mp hurl, hsome, isAbsolute_iff.mpr hscheme⟩
    scenario := ⟨entry, target, hentry, resolveScenario_eq_ok_iff.mpr stands, stockAt_iff.mp hstock⟩
    schedule := resolveSchedule_eq_ok_iff.mpr carries.stages
    thresholds := resolveThresholds_eq_ok_iff.mpr carries.thresholds
    checked := checkThresholds_eq_ok_iff.mpr carries.observable
    thinkTime := resolveThinkTime_eq_ok_iff.mpr carries.thinkTime
    requestTimeout := positive_durationOr_eq_ok_iff.mpr carries.requestTimeout
    tick := positive_durationOr_eq_ok_iff.mpr carries.tick
    gracefulStop := durationOr_eq_ok_iff.mpr carries.gracefulStop
    thresholdInterval := positive_durationOr_eq_ok_iff.mpr carries.thresholdInterval
    iterations := resolveIterations_eq_ok_iff.mpr ⟨hiterations ▸ hlimit, hiterations⟩
    abortDelay := mapM_duration_eq_ok_iff.mpr carries.abortDelay
    abortOnFail := carries.abortOnFail
    healthCheck := healthAt_iff.mp carries.healthCheck
    warmup := carries.warmup
    tags := carries.tags }

/-- The plan of a configuration is the one that carries its settings. -/
theorem resolve_eq_ok_iff_carries {config : Config} {plan : Plan} :
    config.resolve = .ok plan ↔ config.Valid ∧ Carries config plan := by
  rw [resolve_eq_ok_iff]
  exact ⟨fun h => ⟨valid_of_resolved h, h.carries⟩, fun ⟨valid, carries⟩ => valid.resolved carries⟩

theorem exists_resolve_iff {config : Config} : (∃ plan, config.resolve = .ok plan) ↔ config.Valid := by
  simp only [resolve_eq_ok_iff]
  exact ⟨fun ⟨_, h⟩ => valid_of_resolved h, exists_resolved⟩

/-- The configuration with other settings of what happens around a run, and of what is noted about it. -/
def around (config : Config) (abortOnFail : Option Bool) (healthCheck : Option String)
    (inventory : Option InventoryEntry) (warmup : Option String) (tags : Option (Table String)) : Config :=
  { config with abortOnFail, healthCheck, inventory, warmup, tags }

theorem Valid.around {config : Config} (h : config.Valid) (abortOnFail : Option Bool)
    (healthCheck : Option String) (inventory : Option InventoryEntry) (warmup : Option String)
    (tags : Option (Table String)) : (config.around abortOnFail healthCheck inventory warmup tags).Valid :=
  ⟨h.baseUrl, h.scenario, h.stages, h.thresholds, h.thinkTime, h.requestTimeout, h.tick, h.thresholdInterval,
    h.stop, h.abortDelay, h.iterations⟩

/-- **Exactly the valid configurations are accepted.** The plan of an accepted one is the one that carries its
settings; and what happens around a run has no part in whether it is accepted. -/
theorem accepted_iff_valid (config : Config) :
    ((∃ plan, config.resolve = .ok plan) ↔ config.Valid)
      ∧ (∀ plan, config.resolve = .ok plan ↔ config.Valid ∧ Carries config plan)
      ∧ ∀ abortOnFail healthCheck inventory warmup tags,
        (∃ plan, (config.around abortOnFail healthCheck inventory warmup tags).resolve = .ok plan)
          ↔ ∃ plan, config.resolve = .ok plan := by
  refine ⟨exists_resolve_iff, fun plan => resolve_eq_ok_iff_carries, ?_⟩
  intro abortOnFail healthCheck inventory warmup tags
  rw [exists_resolve_iff, exists_resolve_iff]
  -- The settings of the configuration itself are some of those that it can have.
  exact ⟨fun h => h.around config.abortOnFail config.healthCheck config.inventory config.warmup config.tags,
    fun h => h.around abortOnFail healthCheck inventory warmup tags⟩

/-- A look at a shop window: all products are hot, most settings are left out. -/
def window : Config where
  baseUrl := some " https://shop.test/ "
  scenario := some (.popularProducts (some ⟨7, 7⟩) none (some 1) none)
  tick := some "0.25s"
  inventory := some { path := some "/shelf", field := some "left" }
  tags := some (Table.empty.insert "environment" "staging")

/-- A sale of one coupon, without a health check. -/
def sale : Config where
  baseUrl := some "http://shop.test"
  scenario := some (.couponIssue (some 7) none)
  healthCheck := some " "

/-- What is left out in the window, and in the sale, is as usual. -/
theorem window_accepted :
    (∃ plan, window.resolve = .ok plan ∧ Carries window plan
      ∧ plan.baseUrl = "https://shop.test/" ∧ plan.tick = .ofMillis 250
      ∧ plan.tags.find? "environment" = some "staging"
      ∧ plan.healthCheck = some "/actuator/health" ∧ plan.inventory = some ⟨"/shelf", "left"⟩)
    ∧ ∃ plan, sale.resolve = .ok plan ∧ Carries sale plan
      ∧ plan.healthCheck = none ∧ plan.inventory = some ⟨"/api/coupons/7", "quantity"⟩ := by
  constructor
  · have hany : window.resolve.toOption.any (fun plan => decide (plan.tick = .ofMillis 250
        ∧ plan.healthCheck = some "/actuator/health" ∧ plan.inventory = some ⟨"/shelf", "left"⟩)) = true := by
      decide +kernel
    obtain ⟨plan, hplan, hprobes⟩ := exists_ok_of_any hany
    obtain ⟨htick, hhealth, hstock⟩ := of_decide_eq_true hprobes
    have carries : Carries window plan := (((accepted_iff_valid window).2.1 plan).mp hplan).2
    have hurl : plan.baseUrl = "https://shop.test/" := by
      obtain ⟨given, hgiven, hcore⟩ := carries.baseUrl
      obtain rfl := Option.some.inj hgiven
      exact (Text.core_iff.mp hcore).trans (by decide +kernel)
    exact ⟨plan, hplan, carries, hurl, htick, carries.tags "environment", hhealth, hstock⟩
  · have hany : sale.resolve.toOption.any (fun plan => decide (plan.healthCheck = none
        ∧ plan.inventory = some ⟨"/api/coupons/7", "quantity"⟩)) = true := by
      decide +kernel
    obtain ⟨plan, hplan, hprobes⟩ := exists_ok_of_any hany
    obtain ⟨hhealth, hstock⟩ := of_decide_eq_true hprobes
    exact ⟨plan, hplan, (((accepted_iff_valid sale).2.1 plan).mp hplan).2, hhealth, hstock⟩

end LoadTest.Config
