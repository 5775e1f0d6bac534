import LoadTest.Config.File
import LoadTest.Config.Writer
import LoadTest.Proofs.Format.Content

/-!
# LoadTest.Proofs.Config.Stored

Configurations written as JSON and read back. **A configuration is read back as it was written**
(`ofJsonText?_textWith`), if its targets have 64 bits and its probability is read back. What says of itself which
form it has, scenarios and thresholds, is read from that; all else is read field by field.
-/

namespace LoadTest.Config

open Format

/-! ### Parts that are read as they are -/

theorem readStage?_toJson {stage : StageEntry} (target : Json.Signed stage.target) :
    readStage? stage.toJson = some stage := by
  have htarget := Json.signed?_ofInt target
  rw [readStage?, StageEntry.toJson]
  refine (Json.bind_ofMembers ["duration", "target"] (by decide) (by simp)).trans ?_
  simp [required?_recordOf, Json.text?_ofString, htarget, List.lookup_cons]

theorem readThinkTime?_toJson (think : ThinkTimeEntry) : readThinkTime? think.toJson = some think := by
  rw [readThinkTime?, ThinkTimeEntry.toJson]
  refine (Json.bind_ofMembers ["min", "max"] (by decide) (by simp)).trans ?_
  simp [required?_recordOf, Json.text?_ofString, List.lookup_cons]

/-- An optional value that is written as itself or as nothing. -/
theorem optional?_ofOption {α : Type} {write : α → Json} {read : Json → Option α} {given : Option α}
    (each : ∀ a ∈ given, absent? (write a) = some false ∧ read (write a) = some a) :
    optional? read (Json.ofOption write given) = some given := by
  cases given with
  | none => rfl
  | some a =>
      obtain ⟨present, hread⟩ := each a rfl
      rw [Json.ofOption, optional?, present, Option.bind_some, if_neg Bool.false_ne_true, hread]
      rfl

theorem optional?_text (given : Option String) : optional? text? (Json.ofOption Json.ofString given) = some given :=
  optional?_ofOption fun s _ => ⟨rfl, Json.text?_ofString s⟩

theorem optional?_bool (given : Option Bool) : optional? bool? (Json.ofOption Json.bool given) = some given :=
  optional?_ofOption fun b _ => ⟨rfl, Json.bool?_bool b⟩

theorem readInventory?_toJson (inventory : InventoryEntry) : readInventory? inventory.toJson = some inventory := by
  rw [readInventory?, InventoryEntry.toJson]
  refine (Json.bind_ofMembers ["enabled", "path", "field"] (by decide) (by simp)).trans ?_
  simp [maybe?_recordOf, optional?_text, optional?_bool, List.lookup_cons]

/-! ### Parts that say of themselves what they are -/

theorem tells_word (given : Option UInt64) : Json.Tells (.ofOption .ofWord given) (optional? word?) given :=
  Json.tells_ofOption fun n _ => ⟨rfl, Json.tells_ofWord n⟩

theorem tells_text (given : Option String) : Json.Tells (.ofOption .ofString given) (optional? text?) given :=
  Json.tells_ofOption fun s _ => ⟨rfl, Json.tells_ofString s⟩

theorem tells_userIds (ids : UserIds) : Json.Tells ids.toJson readUserIds? ids := by
  obtain ⟨baseModulo, hbaseModulo, hbase⟩ := tells_word ids.baseModulo
  obtain ⟨jitterMax, hjitterMax, hjitter⟩ := tells_word ids.jitterMax
  obtain ⟨multiplier, hmultiplier, hmul⟩ := tells_word ids.multiplier
  refine ⟨.map (texts [("base_modulo", baseModulo), ("jitter_max", jitterMax), ("multiplier", multiplier)]),
    Json.content?_ofMembers_eq_some (by simp [readValues?_cons, hbaseModulo, hjitterMax, hmultiplier]), ?_⟩
  rw [readUserIds?]
  refine (bind_contents (by decide) rfl).trans ?_
  simp [maybe?_recordOf, hbase, hjitter, hmul, List.lookup_cons]

theorem tells_range (range : IdRange) : Json.Tells (rangeJson range) readIdRange? range := by
  obtain ⟨start, hstart, hfirst⟩ := Json.tells_ofWord range.start
  obtain ⟨stop, hstop, hlast⟩ := Json.tells_ofWord range.stop
  refine ⟨.map (texts [("start", start), ("end", stop)]),
    Json.content?_ofMembers_eq_some (by simp [readValues?_cons, hstart, hstop]), ?_⟩
  rw [readIdRange?]
  refine (bind_contents (by decide) rfl).trans ?_
  simp [required?_recordOf, hfirst, hlast, List.lookup_cons]

/-! ### Scenarios -/

/-- **A scenario has its name under `kind` and its settings beside it.** -/
theorem readScenario?_eq_some_iff {members : List (String × Json)} {entry : ScenarioEntry} :
    readScenario? (Json.ofMembers members) = some entry
      ↔ ∃ kind contents, members.filter (·.1 == "kind") = [("kind", .ofString kind)]
        ∧ readValues? (content? 2) (members.filter fun member => !(member.1 == "kind")) = some contents
        ∧ readSettings? kind (.map (texts contents)) = some entry := by
  have hparts : parts? (Json.ofMembers members) = some (.members (texts members)) := by
    show (Json.textMembers? _).map Parts.members = _
    have htexts : Json.textMembers? (members.map fun member => (some member.1, member.2)) = some (texts members) :=
      Json.members?_ofMembers members
    rw [htexts]
    rfl
  have hkind : (texts members).filter (fun member => isKind member.1) = texts (members.filter (·.1 == "kind")) := by
    rw [texts, List.filter_map]
    rfl
  have hothers : (texts members).filter (fun member => !isKind member.1)
      = texts (members.filter fun member => !(member.1 == "kind")) := by
    rw [texts, List.filter_map]
    rfl
  rw [readScenario?, hparts]
  simp only [Option.bind_eq_bind, Option.bind_some, hkind, hothers, mapM_texts]
  generalize hfound : members.filter (·.1 == "kind") = found
  generalize (members.filter fun member => !(member.1 == "kind")) = settings
  rcases found with _ | ⟨⟨key, value⟩, _ | ⟨second, rest⟩⟩
  · simp [texts]
  · have hkey : key = "kind" := by
      have hmem := (List.mem_filter.mp (hfound ▸ List.mem_singleton_self (key, value))).2
      exact beq_iff_eq.mp hmem
    subst hkey
    simp only [texts, List.map_cons, List.map_nil, Option.bind_eq_some_iff, Option.map_eq_some_iff,
      Json.text?_eq_some_iff, List.cons.injEq, Prod.mk.injEq, true_and, and_true]
    constructor
    · rintro ⟨kind, hvalue, -, ⟨contents, hcontents, rfl⟩, h⟩
      exact ⟨kind, contents, hvalue, hcontents, h⟩
    · rintro ⟨kind, contents, hvalue, hcontents, h⟩
      exact ⟨kind, hvalue, _, ⟨contents, hcontents, rfl⟩, h⟩
  · simp [texts]

/-- If a name is under `kind`, it is that of the scenario. -/
theorem exists_settings {members : List (String × Json)} {kind : String} (mem : ("kind", .ofString kind) ∈ members)
    {entry : ScenarioEntry} (h : readScenario? (Json.ofMembers members) = some entry) :
    ∃ contents, members.filter (·.1 == "kind") = [("kind", .ofString kind)]
      ∧ readValues? (content? 2) (members.filter fun member => !(member.1 == "kind")) = some contents
      ∧ readSettings? kind (.map (texts contents)) = some entry := by
  obtain ⟨name, contents, hkind, hcontents, h⟩ := readScenario?_eq_some_iff.mp h
  have hmem : ("kind", Json.ofString kind) ∈ members.filter (·.1 == "kind") := List.mem_filter.mpr ⟨mem, rfl⟩
  obtain rfl : kind = name := by
    rw [hkind, List.mem_singleton] at hmem
    simpa [Json.ofString] using hmem
  exact ⟨contents, hkind, hcontents, h⟩

/-- The probability in a scenario. -/
def ScenarioEntry.probability? : ScenarioEntry → Option Binary64
  | .couponIssue .. => none
  | .popularProducts _ _ probability _ => probability

/-- An optional setting of a scenario is read from what it says. -/
theorem exists_setting {α : Type} {write : α → Json} {read : Content → Option α} (given : Option α)
    (each : ∀ a ∈ given, absent? (write a) = some false ∧ Json.Tells (write a) read a
      ∧ Json.fitsDepth (Json.depthLimit - 2) (write a) = true) :
    ∃ content, content? 2 (Json.ofOption write given) = some content ∧ optional? read content = some given :=
  (Json.tells_ofOption fun a mem => ⟨(each a mem).1, (each a mem).2.1⟩).exists_content?
    (Json.fitsDepth_ofOption fun a mem => (each a mem).2.2)

theorem fitsDepth_userIds (limit : Nat) (ids : UserIds) : Json.fitsDepth (limit + 1) ids.toJson = true := by
  have hword (given : Option UInt64) : Json.fitsDepth limit (.ofOption .ofWord given) = true :=
    Json.fitsDepth_ofOption fun _ _ => Json.fitsDepth.eq_def _ _
  exact Json.fitsDepth_ofMembers_iff.mpr (by simp [hword])

theorem fitsDepth_range (limit : Nat) (range : IdRange) : Json.fitsDepth (limit + 1) (rangeJson range) = true :=
  Json.fitsDepth_ofMembers_iff.mpr (by simp [Json.ofWord, Json.ofNat, Json.ofInt, Json.fitsDepth])

theorem readScenario?_toJson {entry : ScenarioEntry} (probability : ∀ x ∈ entry.probability?, Json.reread? x = some x) :
    readScenario? entry.toJson = some entry := by
  cases entry with
  | couponIssue couponId userIds =>
      obtain ⟨coupon, hcoupon, hid⟩ :=
        exists_setting couponId fun n _ => ⟨rfl, Json.tells_ofWord n, Json.fitsDepth.eq_def _ _⟩
      obtain ⟨ids, hids, huser⟩ :=
        exists_setting userIds fun ids _ => ⟨rfl, tells_userIds ids, fitsDepth_userIds _ ids⟩
      refine readScenario?_eq_some_iff.mpr ⟨"coupon-issue", [("coupon_id", coupon), ("user_id", ids)], rfl, ?_, ?_⟩
      · simp [readValues?_cons, hcoupon, hids]
      · rw [readSettings?, if_pos rfl]
        refine (bind_contents (by decide) rfl).trans ?_
        simp [withDefault?_recordOf, hid, huser, List.lookup_cons]
  | popularProducts hot cold hotProbability cacheHitThreshold =>
      obtain ⟨first, hfirst, hhot⟩ := exists_setting hot fun range _ => ⟨rfl, tells_range range, fitsDepth_range _ range⟩
      obtain ⟨second, hsecond, hcold⟩ :=
        exists_setting cold fun range _ => ⟨rfl, tells_range range, fitsDepth_range _ range⟩
      obtain ⟨share, hshare, hdouble⟩ := exists_setting hotProbability fun x mem => by
        have hread := probability x mem
        obtain ⟨numeral, hnumber⟩ := Json.exists_number_of_double? hread
        exact ⟨by rw [hnumber]; rfl, Json.tells_of_double? hread, by rw [hnumber]; exact Json.fitsDepth.eq_def _ _⟩
      obtain ⟨limit, hlimit, htext⟩ :=
        exists_setting cacheHitThreshold fun s _ => ⟨rfl, Json.tells_ofString s, Json.fitsDepth.eq_def _ _⟩
      refine readScenario?_eq_some_iff.mpr ⟨"popular-products",
        [("hot", first), ("cold", second), ("hot_probability", share), ("cache_hit_threshold", limit)], rfl, ?_, ?_⟩
      · simp [readValues?_cons, hfirst, hsecond, hshare, hlimit]
      · rw [readSettings?, if_neg (by decide), if_pos rfl]
        refine (bind_contents (by decide) rfl).trans ?_
        simp [withDefault?_recordOf, hhot, hcold, hdouble, htext, List.lookup_cons]

/-! ### Thresholds -/

theorem readThreshold?_toJson (entry : ThresholdEntry) :
    (content? 3 entry.toJson).bind readThreshold? = some entry := by
  cases entry with
  | bare expression => rfl
  | described expression description =>
      obtain ⟨said, hsaid, hdescription⟩ := tells_text description
      have htext (given : Option String) (limit : Nat) : Json.fitsDepth limit (.ofOption .ofString given) = true :=
        Json.fitsDepth_ofOption fun _ _ => Json.fitsDepth.eq_def _ _
      have hcontent : content? 3 (ThresholdEntry.described expression description).toJson
          = some (.map (texts [("threshold", .text expression), ("description", said)])) :=
        Json.content?_eq_some_iff.mpr
          ⟨Json.fitsDepth_ofMembers_iff.mpr (by simp [htext, Json.ofString, Json.fitsDepth]),
            Json.content?_ofMembers_eq_some (by simp [readValues?_cons, hsaid, Json.ofString, Json.content?])⟩
      have hexpression : text? (Content.text expression) = some expression := rfl
      rw [hcontent, Option.bind_some, readThreshold?]
      refine (bind_contents (by decide) rfl).trans ?_
      simp [required?_recordOf, withDefault?_recordOf, hexpression, hdescription, List.lookup_cons]

/-- The thresholds of each metric. -/
def readThresholds? (value : Json) : Option (Table (List ThresholdEntry)) :=
  (entries? (list? fun entry : Json => (content? 3 entry).bind readThreshold?) value).map Table.ofList

theorem readThresholds?_toJson (table : Table (List ThresholdEntry)) :
    readThresholds? (.ofTable (fun entries => .array (entries.map ThresholdEntry.toJson)) table) = some table :=
  Json.table?_ofTable_self (fun entries =>
    (Json.list?_array fun entry _ => readThreshold?_toJson entry).trans (congrArg some entries.map_id)) table

/-- The tags of a report. -/
def readTags? (value : Json) : Option (Table String) := (entries? text? value).map Table.ofList

/-! ### The whole -/

/-- Each setting of a record is that of a configuration. -/
structure Describes (record : Record Json) (config : Config) : Prop where
  baseUrl : record.maybe? "base_url" text? = some config.baseUrl
  scenario : record.maybe? "scenario" readScenario? = some config.scenario
  stages : record.maybe? "stages" (list? readStage?) = some config.stages
  thresholds : record.maybe? "thresholds" readThresholds? = some config.thresholds
  thinkTime : record.maybe? "think_time" readThinkTime? = some config.thinkTime
  requestTimeout : record.maybe? "request_timeout" text? = some config.requestTimeout
  tick : record.maybe? "tick" text? = some config.tick
  stop : record.maybe? "stop" text? = some config.stop
  iterations : record.maybe? "iterations" word? = some config.iterations
  abortOnFail : record.maybe? "abort_on_fail" bool? = some config.abortOnFail
  abortDelay : record.maybe? "abort_delay" text? = some config.abortDelay
  thresholdInterval : record.maybe? "threshold_interval" text? = some config.thresholdInterval
  healthCheck : record.maybe? "health_check" text? = some config.healthCheck
  inventory : record.maybe? "inventory" readInventory? = some config.inventory
  warmup : record.maybe? "warmup" text? = some config.warmup
  tags : record.maybe? "tags" readTags? = some config.tags

/-- **An object is read as a configuration if it is a record that describes it.** -/
theorem read?_eq_some_iff {members : List (String × Json)} {config : Config} :
    read? (Json.ofMembers members) = some config
      ↔ ∃ record, Record.ofMembers? fields (texts members) = some record ∧ Describes record config := by
  rw [read?, Json.ofSource?_ofMembers]
  refine Option.bind_eq_some_iff.trans (exists_congr fun record => and_congr_right fun _ => ?_)
  constructor
  · intro h
    obtain ⟨_, baseUrl, h⟩ := Option.bind_eq_some_iff.mp h
    obtain ⟨_, scenario, h⟩ := Option.bind_eq_some_iff.mp h
    obtain ⟨_, stages, h⟩ := Option.bind_eq_some_iff.mp h
    obtain ⟨_, thresholds, h⟩ := Option.bind_eq_some_iff.mp h
    obtain ⟨_, thinkTime, h⟩ := Option.bind_eq_some_iff.mp h
    obtain ⟨_, requestTimeout, h⟩ := Option.bind_eq_some_iff.mp h
    obtain ⟨_, tick, h⟩ := Option.bind_eq_some_iff.mp h
    obtain ⟨_, stop, h⟩ := Option.bind_eq_some_iff.mp h
    obtain ⟨_, iterations, h⟩ := Option.bind_eq_some_iff.mp h
    obtain ⟨_, abortOnFail, h⟩ := Option.bind_eq_some_iff.mp h
    obtain ⟨_, abortDelay, h⟩ := Option.bind_eq_some_iff.mp h
    obtain ⟨_, thresholdInterval, h⟩ := Option.bind_eq_some_iff.mp h
    obtain ⟨_, healthCheck, h⟩ := Option.bind_eq_some_iff.mp h
    obtain ⟨_, inventory, h⟩ := Option.bind_eq_some_iff.mp h
    obtain ⟨_, warmup, h⟩ := Option.bind_eq_some_iff.mp h
    obtain ⟨_, tags, h⟩ := Option.bind_eq_some_iff.mp h
    cases h
    exact ⟨baseUrl, scenario, stages, thresholds, thinkTime, requestTimeout, tick, stop,
      iterations, abortOnFail, abortDelay, thresholdInterval, healthCheck, inventory, warmup, tags⟩
  · intro h
    refine Option.bind_eq_some_iff.mpr ⟨_, h.baseUrl, ?_⟩
    refine Option.bind_eq_some_iff.mpr ⟨_, h.scenario, ?_⟩
    refine Option.bind_eq_some_iff.mpr ⟨_, h.stages, ?_⟩
    refine Option.bind_eq_some_iff.mpr ⟨_, h.thresholds, ?_⟩
    refine Option.bind_eq_some_iff.mpr ⟨_, h.thinkTime, ?_⟩
    refine Option.bind_eq_some_iff.mpr ⟨_, h.requestTimeout, ?_⟩
    refine Option.bind_eq_some_iff.mpr ⟨_, h.tick, ?_⟩
    refine Option.bind_eq_some_iff.mpr ⟨_, h.stop, ?_⟩
    refine Option.bind_eq_some_iff.mpr ⟨_, h.iterations, ?_⟩
    refine Option.bind_eq_some_iff.mpr ⟨_, h.abortOnFail, ?_⟩
    refine Option.bind_eq_some_iff.mpr ⟨_, h.abortDelay, ?_⟩
    refine Option.bind_eq_some_iff.mpr ⟨_, h.thresholdInterval, ?_⟩
    refine Option.bind_eq_some_iff.mpr ⟨_, h.healthCheck, ?_⟩
    refine Option.bind_eq_some_iff.mpr ⟨_, h.inventory, ?_⟩
    refine Option.bind_eq_some_iff.mpr ⟨_, h.warmup, ?_⟩
    refine Option.bind_eq_some_iff.mpr ⟨_, h.tags, ?_⟩
    rfl

/-- The probability in a configuration, if its scenario has one. -/
def probability? (config : Config) : Option Binary64 := config.scenario.bind (·.probability?)

/-- What reading a configuration relies on: its targets have 64 bits, and its probability is finite. -/
structure Sound (config : Config) : Prop where
  targets : ∀ stages ∈ config.stages, ∀ stage ∈ stages, Json.Signed stage.target
  probability : ∀ x ∈ config.probability?, x.isFinite = true

theorem read?_toJson {config : Config} (sound : config.Sound) (exact : ∀ x ∈ config.probability?, Json.Exact x) :
    read? config.toJson = some config := by
  have hscenario : optional? readScenario? (Json.ofOption ScenarioEntry.toJson config.scenario) = some config.scenario :=
    optional?_ofOption fun entry mem => ⟨by cases entry <;> rfl, readScenario?_toJson fun x hx =>
      have hmem : x ∈ config.probability? := Option.bind_eq_some_iff.mpr ⟨entry, mem, hx⟩
      exact x hmem (sound.probability x hmem)⟩
  have hstages : optional? (list? readStage?)
      (Json.ofOption (fun stages => .array (stages.map StageEntry.toJson)) config.stages) = some config.stages :=
    optional?_ofOption fun stages mem => ⟨rfl, (Json.list?_array fun stage hstage =>
      readStage?_toJson (sound.targets stages mem stage hstage)).trans (congrArg some stages.map_id)⟩
  have hthresholds : optional? readThresholds?
      (Json.ofOption (.ofTable fun entries => .array (entries.map ThresholdEntry.toJson)) config.thresholds)
        = some config.thresholds :=
    optional?_ofOption fun table _ => ⟨rfl, readThresholds?_toJson table⟩
  have hthink : optional? readThinkTime? (Json.ofOption ThinkTimeEntry.toJson config.thinkTime)
      = some config.thinkTime :=
    optional?_ofOption fun think _ => ⟨rfl, readThinkTime?_toJson think⟩
  have hiterations : optional? word? (Json.ofOption .ofWord config.iterations) = some config.iterations :=
    optional?_ofOption fun n _ => ⟨rfl, Json.word?_ofWord n⟩
  have hinventory : optional? readInventory? (Json.ofOption InventoryEntry.toJson config.inventory)
      = some config.inventory :=
    optional?_ofOption fun inventory _ => ⟨rfl, readInventory?_toJson inventory⟩
  have htags : optional? readTags? (Json.ofOption (.ofTable Json.ofString) config.tags) = some config.tags :=
    optional?_ofOption fun table _ => ⟨rfl, Json.table?_ofTable_self Json.text?_ofString table⟩
  exact read?_eq_some_iff.mpr ⟨_, ofMembers?_of_names (by decide) rfl, {
    baseUrl := (maybe?_recordOf (by decide)).trans (optional?_text _)
    scenario := (maybe?_recordOf (by decide)).trans hscenario
    stages := (maybe?_recordOf (by decide)).trans hstages
    thresholds := (maybe?_recordOf (by decide)).trans hthresholds
    thinkTime := (maybe?_recordOf (by decide)).trans hthink
    requestTimeout := (maybe?_recordOf (by decide)).trans (optional?_text _)
    tick := (maybe?_recordOf (by decide)).trans (optional?_text _)
    stop := (maybe?_recordOf (by decide)).trans (optional?_text _)
    iterations := (maybe?_recordOf (by decide)).trans hiterations
    abortOnFail := (maybe?_recordOf (by decide)).trans (optional?_bool _)
    abortDelay := (maybe?_recordOf (by decide)).trans (optional?_text _)
    thresholdInterval := (maybe?_recordOf (by decide)).trans (optional?_text _)
    healthCheck := (maybe?_recordOf (by decide)).trans (optional?_text _)
    inventory := (maybe?_recordOf (by decide)).trans hinventory
    warmup := (maybe?_recordOf (by decide)).trans (optional?_text _)
    tags := (maybe?_recordOf (by decide)).trans htags }⟩

theorem StageEntry.written_toJson (stage : StageEntry) : stage.toJson.Written :=
  Json.written_ofMembers (by simp [Json.ofString, Json.ofInt, Json.Written, Json.written_ofInt])

/-- A configuration can be written as text. -/
theorem written_toJson (config : Config) : config.toJson.Written := by
  have hoption {α : Type} {write : α → Json} (each : ∀ a, (write a).Written) (given : Option α) :
      (Json.ofOption write given).Written := by
    cases given with
    | none => trivial
    | some a => exact each a
  have hstring : ∀ s : String, (Json.ofString s).Written := fun _ => rfl
  have htext (given : Option String) : (Json.ofOption Json.ofString given).Written := hoption hstring given
  have hword (given : Option UInt64) : (Json.ofOption Json.ofWord given).Written := hoption Json.written_word given
  have hbool (given : Option Bool) : (Json.ofOption Json.bool given).Written :=
    hoption (fun b => show (Json.bool b).Written from trivial) given
  have hrange (range : IdRange) : (rangeJson range).Written :=
    Json.written_ofMembers (by simp [Json.written_word])
  have hids (ids : UserIds) : ids.toJson.Written := Json.written_ofMembers (by simp [hword])
  have hscenario (entry : ScenarioEntry) : entry.toJson.Written := by
    cases entry with
    | couponIssue couponId userIds => exact Json.written_ofMembers (by simp [hstring, hword, hoption hids])
    | popularProducts hot cold hotProbability cacheHitThreshold =>
        exact Json.written_ofMembers (by simp [hstring, htext, hoption hrange, hoption Json.written_double])
  have hstages (stages : List StageEntry) : (Json.array (stages.map StageEntry.toJson)).Written :=
    Json.itemsWritten_iff.mpr (List.forall_mem_map.mpr fun stage _ => stage.written_toJson)
  have hthreshold (entry : ThresholdEntry) : entry.toJson.Written := by
    cases entry with
    | bare expression => rfl
    | described expression description => exact Json.written_ofMembers (by simp [hstring, htext])
  have hthresholds (table : Table (List ThresholdEntry)) :
      (Json.ofTable (fun entries => .array (entries.map ThresholdEntry.toJson)) table).Written :=
    Json.written_ofTable fun entry _ =>
      Json.itemsWritten_iff.mpr (List.forall_mem_map.mpr fun threshold _ => hthreshold threshold)
  have hthink (think : ThinkTimeEntry) : think.toJson.Written := Json.written_ofMembers (by simp [hstring])
  have hinventory (inventory : InventoryEntry) : inventory.toJson.Written :=
    Json.written_ofMembers (by simp [htext, hbool])
  have htags (table : Table String) : (Json.ofTable Json.ofString table).Written :=
    Json.written_ofTable fun _ _ => hstring _
  exact Json.written_ofMembers (by simp [htext, hword, hbool, hoption hscenario, hoption hstages, hoption hthresholds,
    hoption hthink, hoption hinventory, hoption htags])

/-- **A configuration written as text is read back as it was,** in whatever spacing. -/
theorem ofJsonText?_textWith {config : Config} (sound : config.Sound) (exact : ∀ x ∈ config.probability?, Json.Exact x)
    (spacing : Json.Spacing) : ofJsonText? (config.toJson.textWith spacing) = some config := by
  show (Json.ofText? (config.toJson.textWith spacing)).bind read? = some config
  rw [Json.ofText?_textWith config.written_toJson, Option.bind_some, read?_toJson sound exact]

end LoadTest.Config
