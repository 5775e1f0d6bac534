import LoadTest.Proofs.Config.Stored
import Mathlib.Logic.Relation

/-!
# LoadTest.Proofs.Config.Spelling

Configurations in other spellings than they are written in. Which spellings there are is listed here on its own, setting
by setting, and is what the reader goes by (`fields_eq`); a configuration is written under the first of them
(`underFirstNames`). One change is one constructor of `Respelt`: a setting takes its other spelling, a setting that is
nothing is left out, at the top or inside of a part, or a key that no setting has is added. **No change is noticed by the
reader** (`read?_of_respelt`), so none of any number of them is. A setting under both of its spellings is no configuration
(`read?_of_speltTwice`).
-/

namespace LoadTest.Config

open Format

/-! ### Spellings -/

/-- The settings of a configuration. Nine of them have another spelling. -/
def settingFields : List Field := [
  ⟨"base_url", ["baseUrl"]⟩,
  ⟨"scenario", []⟩,
  ⟨"stages", ["schedule"]⟩,
  ⟨"thresholds", ["criteria"]⟩,
  ⟨"think_time", ["thinkTime"]⟩,
  ⟨"request_timeout", ["requestTimeout"]⟩,
  ⟨"tick", []⟩,
  ⟨"stop", []⟩,
  ⟨"iterations", []⟩,
  ⟨"abort_on_fail", ["abortOnFail"]⟩,
  ⟨"abort_delay", ["abortDelay"]⟩,
  ⟨"threshold_interval", ["thresholdInterval"]⟩,
  ⟨"health_check", ["healthCheck"]⟩,
  ⟨"inventory", []⟩,
  ⟨"warmup", []⟩,
  ⟨"tags", []⟩]

/-- These are the settings that are read, each in both spellings. -/
theorem fields_eq : fields = settingFields := rfl

/-- The fields of how users are drawn. -/
def userIdFields : List Field := [⟨"base_modulo", []⟩, ⟨"jitter_max", []⟩, ⟨"multiplier", []⟩]

/-- The settings of coupon requests. -/
def couponFields : List Field := [⟨"coupon_id", ["couponId"]⟩, ⟨"user_id", []⟩]

/-- The settings of product requests. -/
def productFields : List Field := [⟨"hot", []⟩, ⟨"cold", []⟩, ⟨"hot_probability", []⟩, ⟨"cache_hit_threshold", []⟩]

/-- The fields of a threshold. -/
def thresholdFields : List Field := [⟨"threshold", []⟩, ⟨"description", []⟩]

/-- The fields of the probe of the stock. -/
def inventoryFields : List Field := [⟨"enabled", []⟩, ⟨"path", []⟩, ⟨"field", []⟩]

/-- The settings of a scenario beside its kind. -/
def ScenarioEntry.fields : ScenarioEntry → List Field
  | .couponIssue .. => couponFields
  | .popularProducts .. => productFields

/-- Every setting is written under its first spelling, and so is every setting of the scenario. -/
def UnderFirstNames (config : Config) : Prop :=
  ∃ members, config.toJson = .ofMembers members ∧ members.map (·.1) = settingFields.map (·.name)
    ∧ ∀ entry ∈ config.scenario, ∃ settings, ("scenario", Json.ofMembers settings) ∈ members
      ∧ settings.map (·.1) = "kind" :: entry.fields.map (·.name)

theorem underFirstNames (config : Config) : config.UnderFirstNames := by
  refine ⟨_, rfl, rfl, ?_⟩
  intro entry mem
  have hmem : ("scenario", entry.toJson) ∈ [("base_url", Json.ofOption Json.ofString config.baseUrl),
      ("scenario", Json.ofOption ScenarioEntry.toJson config.scenario)] := by
    simp [Option.mem_def.mp mem, Json.ofOption]
  cases entry with
  | couponIssue => exact ⟨_, List.mem_append_left _ hmem, rfl⟩
  | popularProducts => exact ⟨_, List.mem_append_left _ hmem, rfl⟩

/-! ### One change -/

/-- One change inside of a setting of coupon requests. -/
def InsideCoupon {σ : Type} [Source σ] (object : List (String × σ) → σ) : String → σ → σ → Prop
  | "user_id" => ObjectRespelt object userIdFields Untouched
  | _ => fun _ _ => False

/-- One change to a scenario. -/
inductive ScenarioRespelt : Json → Json → Prop where
  | couponIssue {settings changed : List (String × Json)} (kind : ("kind", .ofString "coupon-issue") ∈ settings)
      (change : Format.Respelt couponFields (InsideCoupon .ofMembers) settings changed) :
      ScenarioRespelt (.ofMembers settings) (.ofMembers changed)
  | popularProducts {settings changed : List (String × Json)} (kind : ("kind", .ofString "popular-products") ∈ settings)
      (change : Format.Respelt productFields Untouched settings changed) :
      ScenarioRespelt (.ofMembers settings) (.ofMembers changed)

/-- One change to one of the thresholds of a metric: its description is left out. -/
inductive ThresholdsRespelt : Json → Json → Prop where
  | described {before after : List (String × Json)} {metric : String} {first last : List Json} {entry other : Json}
      (change : ObjectRespelt .ofMembers [⟨"description", []⟩] Untouched entry other) :
      ThresholdsRespelt (.ofMembers (before ++ (metric, .array (first ++ entry :: last)) :: after))
        (.ofMembers (before ++ (metric, .array (first ++ other :: last)) :: after))

/-- One change inside of a setting. -/
def Inside : String → Json → Json → Prop
  | "scenario" => ScenarioRespelt
  | "thresholds" => ThresholdsRespelt
  | "inventory" => ObjectRespelt .ofMembers inventoryFields Untouched
  | _ => fun _ _ => False

/-- One change to a configuration: to one of its settings, or a key that no setting has is added. -/
inductive Respelt : Json → Json → Prop where
  | setting {members changed : List (String × Json)} (change : Format.Respelt settingFields Inside members changed) :
      Respelt (.ofMembers members) (.ofMembers changed)
  | added {before after : List (String × Json)} {key : String} {value : Json}
      (unknown : ∀ field ∈ settingFields, key ∉ field.spellings) :
      Respelt (.ofMembers (before ++ after)) (.ofMembers (before ++ (key, value) :: after))

/-! ### Changes to parts -/

variable {value other : Json}

theorem keeps_inventory (change : ObjectRespelt .ofMembers inventoryFields Untouched value other) :
    Keeps readInventory? value other :=
  change.keeps (fun members => congrArg (Option.bind · _) (Json.ofSource?_ofMembers _ members)) (by decide)
    (List.Subset.refl _) fun shifts _ =>
      bind_keeps (fun _ => shifts.maybe? False.elim) fun _ _ =>
        bind_keeps (fun _ => shifts.maybe? False.elim) fun _ _ =>
          bind_keeps (fun _ => shifts.maybe? False.elim) fun _ _ h => h

theorem keeps_userIds {ids next : Content} (change : ObjectRespelt (.map ∘ texts) userIdFields Untouched ids next) :
    Keeps readUserIds? ids next :=
  change.keeps (fun _ => rfl) (by decide) (List.Subset.refl _) fun shifts _ =>
    bind_keeps (fun _ => shifts.maybe? False.elim) fun _ _ =>
      bind_keeps (fun _ => shifts.maybe? False.elim) fun _ _ =>
        bind_keeps (fun _ => shifts.maybe? False.elim) fun _ _ h => h

theorem keeps_couponSettings {settings next : Content}
    (change : ObjectRespelt (.map ∘ texts) couponFields (InsideCoupon (.map ∘ texts)) settings next) :
    Keeps (readSettings? "coupon-issue") settings next := by
  have hinside {value other : Content} (change : InsideCoupon (.map ∘ texts) "user_id" value other) :
      Keeps (optional? readUserIds?) value other := by
    replace change : ObjectRespelt (.map ∘ texts) userIdFields Untouched value other := change
    exact (keeps_userIds change).optional? (by cases change; rfl)
  exact change.keeps (fun _ => rfl) (by decide) (List.Subset.refl _) fun shifts _ =>
    bind_keeps (fun _ => shifts.withDefault? False.elim) fun _ _ =>
      bind_keeps (fun _ => shifts.withDefault? hinside) fun _ _ h => h

theorem keeps_productSettings {settings next : Content}
    (change : ObjectRespelt (.map ∘ texts) productFields Untouched settings next) :
    Keeps (readSettings? "popular-products") settings next :=
  change.keeps (fun _ => rfl) (by decide) (List.Subset.refl _) fun shifts _ =>
    bind_keeps (fun _ => shifts.withDefault? False.elim) fun _ _ =>
      bind_keeps (fun _ => shifts.withDefault? False.elim) fun _ _ =>
        bind_keeps (fun _ => shifts.withDefault? False.elim) fun _ _ =>
          bind_keeps (fun _ => shifts.withDefault? False.elim) fun _ _ h => h

/-- A scenario keeps its kind, and its settings are read as before. -/
theorem keeps_settings {kind : String} {fields : List Field} {inside : String → Json → Json → Prop}
    {within : String → Content → Content → Prop} {settings changed : List (String × Json)}
    (mem : ("kind", .ofString kind) ∈ settings) (change : Format.Respelt fields inside settings changed)
    (unnamed : ∀ field ∈ fields, "kind" ∉ field.spellings)
    (inner : ∀ {name value other content}, inside name value other → content? 2 value = some content →
      ∃ next, content? 2 other = some next ∧ within name content next)
    (keeps : ∀ {content next}, ObjectRespelt (.map ∘ texts) fields within content next →
      Keeps (readSettings? kind) content next) :
    Keeps readScenario? (Json.ofMembers settings) (Json.ofMembers changed) := by
  intro entry h
  obtain ⟨contents, hkind, hcontents, h⟩ := exists_settings mem h
  -- The kind is no setting, so the change is one to the members beside it.
  obtain ⟨hsame, hothers⟩ := change.partition unnamed
  obtain ⟨next, hnext, hchange⟩ := hothers.exists_readValues? hcontents
    (fun hvalue absent => (Json.absent?_of_content? (Json.content?_eq_some_iff.mp hvalue).2).trans absent) inner
  exact readScenario?_eq_some_iff.mpr ⟨kind, next, hsame.trans hkind, hnext, keeps ⟨hchange⟩ h⟩

theorem keeps_scenario (change : ScenarioRespelt value other) : Keeps readScenario? value other := by
  cases change with
  | couponIssue mem change =>
      refine keeps_settings mem change (by decide) (fun {name _ _ _} change h => ?_) keeps_couponSettings
      unfold InsideCoupon at change
      split at change
      · exact Json.exists_content?_of_respelt change h
      · exact change.elim
  | popularProducts mem change => exact keeps_settings mem change (by decide) False.elim keeps_productSettings

/-- A threshold keeps its expression. -/
theorem keeps_description {content next : Content}
    (change : ObjectRespelt (.map ∘ texts) [⟨"description", []⟩] Untouched content next) :
    Keeps readThreshold? content next := by
  have present {value : Content} (absent : absent? value = some true) : text? value = none := by
    cases value with
    | null => rfl
    | _ => cases absent
  exact change.keeps (fun _ => rfl) (by decide : Separate thresholdFields) (List.subset_cons_self _ _) fun shifts _ =>
    bind_keeps (fun _ => shifts.required? present False.elim) fun _ _ =>
      bind_keeps (fun _ => shifts.withDefault? False.elim) fun _ _ h => h

theorem keeps_thresholds (change : ThresholdsRespelt value other) : Keeps readThresholds? value other := by
  cases change with
  | @described before after metric first last entry other change =>
      have hentry : Keeps (fun entry : Json => (content? 3 entry).bind readThreshold?) entry other := by
        intro threshold h
        obtain ⟨content, hcontent, h⟩ := Option.bind_eq_some_iff.mp h
        obtain ⟨next, hnext, hchange⟩ := Json.exists_content?_of_respelt change hcontent
        exact Option.bind_eq_some_iff.mpr ⟨next, hnext, keeps_description hchange h⟩
      have hlist : Keeps (list? fun entry : Json => (content? 3 entry).bind readThreshold?)
          (.array (first ++ entry :: last)) (.array (first ++ other :: last)) := hentry.mapM first last
      intro table h
      obtain ⟨entries, hentries, rfl⟩ := Option.map_eq_some_iff.mp h
      rw [Json.entries?_ofMembers] at hentries
      refine Option.map_eq_some_iff.mpr ⟨entries, ?_, rfl⟩
      rw [Json.entries?_ofMembers]
      exact hlist.readValues? before after metric hentries

/-! ### The whole -/

/-- Changes to the values of a record, each inside of its setting, leave what it describes as it is. -/
theorem Describes.shifts {record next : Record Json} {config : Config} (describes : Describes record config)
    (shifts : record.Shifts Inside next) : Describes next config := by
  have hscenario {value other : Json} (change : Inside "scenario" value other) :
      Keeps (optional? readScenario?) value other := by
    replace change : ScenarioRespelt value other := change
    exact (keeps_scenario change).optional? (by cases change <;> rfl)
  have hthresholds {value other : Json} (change : Inside "thresholds" value other) :
      Keeps (optional? readThresholds?) value other := by
    replace change : ThresholdsRespelt value other := change
    exact (keeps_thresholds change).optional? (by cases change; rfl)
  have hinventory {value other : Json} (change : Inside "inventory" value other) :
      Keeps (optional? readInventory?) value other := by
    replace change : ObjectRespelt .ofMembers inventoryFields Untouched value other := change
    exact (keeps_inventory change).optional? (by cases change; rfl)
  -- Nothing changes inside of the other settings, so `Inside` of them is false.
  exact {
    baseUrl := shifts.maybe? False.elim describes.baseUrl
    scenario := shifts.maybe? hscenario describes.scenario
    stages := shifts.maybe? False.elim describes.stages
    thresholds := shifts.maybe? hthresholds describes.thresholds
    thinkTime := shifts.maybe? False.elim describes.thinkTime
    requestTimeout := shifts.maybe? False.elim describes.requestTimeout
    tick := shifts.maybe? False.elim describes.tick
    stop := shifts.maybe? False.elim describes.stop
    iterations := shifts.maybe? False.elim describes.iterations
    abortOnFail := shifts.maybe? False.elim describes.abortOnFail
    abortDelay := shifts.maybe? False.elim describes.abortDelay
    thresholdInterval := shifts.maybe? False.elim describes.thresholdInterval
    healthCheck := shifts.maybe? False.elim describes.healthCheck
    inventory := shifts.maybe? hinventory describes.inventory
    warmup := shifts.maybe? False.elim describes.warmup
    tags := shifts.maybe? False.elim describes.tags }

/-- An object is read as a configuration if it is a record of the settings that describes it. -/
theorem read?_iff_settings {members : List (String × Json)} {config : Config} :
    read? (Json.ofMembers members) = some config
      ↔ ∃ record, Record.ofMembers? settingFields (texts members) = some record ∧ Describes record config := by
  rw [← fields_eq]
  exact read?_eq_some_iff

/-- **No change to a configuration is noticed.** -/
theorem read?_of_respelt {json changed : Json} (change : Respelt json changed) : Keeps read? json changed := by
  intro config h
  cases change with
  | setting change =>
      obtain ⟨record, hrecord, describes⟩ := read?_iff_settings.mp h
      obtain ⟨next, hnext, shifts⟩ := change.exists_shifts (by decide) (List.Subset.refl _) hrecord
      exact read?_iff_settings.mpr ⟨next, hnext, describes.shifts shifts⟩
  | @added before after key value unknown =>
      obtain ⟨record, hrecord, describes⟩ := read?_iff_settings.mp h
      have hskipped := ofMembers?_of_unnamed (by decide) unknown before after value
      exact read?_iff_settings.mpr ⟨record, hskipped.trans hrecord, describes⟩

/-- **However many changes there are,** the same configuration is read. -/
theorem read?_of_reflTransGen {json changed : Json} (changes : Relation.ReflTransGen Respelt json changed) :
    Keeps read? json changed := by
  induction changes with
  | refl => exact fun _ h => h
  | tail _ change ih => exact fun _ h => read?_of_respelt change (ih h)

/-- Where each member may change on its own, all of them may. -/
theorem reflTransGen_each {members : List (String × Json)} {f : String × Json → Option (String × Json)}
    (each : ∀ member ∈ members, ∀ before after : List (String × Json), Relation.ReflTransGen Respelt
      (.ofMembers (before ++ member :: after)) (.ofMembers (before ++ ((f member).toList ++ after))))
    (before : List (String × Json)) :
    Relation.ReflTransGen Respelt (.ofMembers (before ++ members)) (.ofMembers (before ++ members.filterMap f)) := by
  induction members generalizing before with
  | nil => exact .refl
  | cons member rest ih =>
      obtain ⟨hmember, hrest⟩ := List.forall_mem_cons.mp each
      have hothers := ih hrest (before ++ (f member).toList)
      rw [List.append_assoc, List.append_assoc] at hothers
      rw [List.filterMap_eq_flatMap_toList, List.flatMap_cons, ← List.filterMap_eq_flatMap_toList]
      exact (hmember before rest).trans hothers

/-- Settings that are nothing may all be left out. -/
theorem reflTransGen_omitted {members : List (String × Json)}
    (known : ∀ member ∈ members, ∃ field ∈ settingFields, member.1 ∈ field.spellings) (before : List (String × Json)) :
    Relation.ReflTransGen Respelt (.ofMembers (before ++ members))
      (.ofMembers (before ++ members.filter fun member => absent? member.2 != some true)) := by
  rw [← List.filterMap_eq_filter]
  refine reflTransGen_each (fun member mem first last => ?_) before
  obtain ⟨field, hfield, spelt⟩ := known member mem
  by_cases absent : absent? member.2 = some true
  · have homitted : Respelt (.ofMembers (first ++ member :: last)) (.ofMembers (first ++ last)) :=
      .setting (.omitted hfield spelt absent)
    simpa [Option.guard, absent] using Relation.ReflTransGen.single homitted
  · simp [Option.guard, absent, Relation.ReflTransGen.refl]

/-- Any of the settings may take their other spelling. -/
theorem reflTransGen_renamed (spelling : String → String) {members : List (String × Json)}
    (known : ∀ member ∈ members, spelling member.1 = member.1
      ∨ ∃ field ∈ settingFields, field.name = member.1 ∧ spelling member.1 ∈ field.aliases)
    (before : List (String × Json)) :
    Relation.ReflTransGen Respelt (.ofMembers (before ++ members))
      (.ofMembers (before ++ members.map fun member => (spelling member.1, member.2))) := by
  rw [← List.filterMap_eq_map]
  refine reflTransGen_each (fun (key, value) mem first last => ?_) before
  show Relation.ReflTransGen Respelt _ (.ofMembers (first ++ (spelling key, value) :: last))
  rcases known (key, value) mem with hsame | ⟨field, hfield, rfl, another⟩
  · rw [show spelling key = key from hsame]
  · exact .single (.setting (.renamed hfield another))

/-! ### Two spellings of one setting -/

/-- A setting is given under both of its spellings, at the top or as the coupon of coupon requests. -/
inductive SpeltTwice : Json → Prop where
  | setting {members : List (String × Json)} {field : Field} {spelling : String} {value other : Json}
      (mem : field ∈ settingFields) (another : spelling ∈ field.aliases) (first : (field.name, value) ∈ members)
      (second : (spelling, other) ∈ members) : SpeltTwice (.ofMembers members)
  | coupon {members settings : List (String × Json)} {value other : Json}
      (scenario : ("scenario", .ofMembers settings) ∈ members) (kind : ("kind", .ofString "coupon-issue") ∈ settings)
      (first : ("coupon_id", value) ∈ settings) (second : ("couponId", other) ∈ settings) :
      SpeltTwice (.ofMembers members)

theorem readScenario?_of_speltTwice {settings : List (String × Json)}
    (kind : ("kind", .ofString "coupon-issue") ∈ settings) {value other : Json} (first : ("coupon_id", value) ∈ settings)
    (second : ("couponId", other) ∈ settings) : readScenario? (Json.ofMembers settings) = none := by
  refine Option.eq_none_iff_forall_not_mem.mpr fun entry h => ?_
  obtain ⟨contents, -, hcontents, h⟩ := exists_settings kind h
  obtain ⟨coupon, hcoupon⟩ := exists_mem_readValues? hcontents (List.mem_filter.mpr ⟨first, rfl⟩)
  obtain ⟨another, hanother⟩ := exists_mem_readValues? hcontents (List.mem_filter.mpr ⟨second, rfl⟩)
  have hnone : Record.ofMembers? couponFields (texts contents) = none :=
    ofMembers?_of_twice (by decide) List.mem_cons_self List.mem_cons_self hcoupon hanother
  obtain ⟨record, hrecord, -⟩ := Option.bind_eq_some_iff.mp h
  cases hnone.symm.trans hrecord

/-- **A setting under both of its spellings is no configuration.** -/
theorem read?_of_speltTwice {json : Json} (twice : SpeltTwice json) : read? json = none := by
  refine Option.eq_none_iff_forall_not_mem.mpr fun config h => ?_
  cases twice with
  | setting mem another first second =>
      obtain ⟨record, hrecord, -⟩ := read?_iff_settings.mp h
      cases (ofMembers?_of_twice (by decide) mem another first second).symm.trans hrecord
  | coupon scenario kind first second =>
      obtain ⟨record, hrecord, describes⟩ := read?_iff_settings.mp h
      have hgiven : record.given? "scenario" = some _ :=
        Record.given?_of_mem (by decide) hrecord (List.mem_cons_of_mem _ List.mem_cons_self) rfl scenario
      have hread := describes.scenario
      rw [Record.maybe?, hgiven] at hread
      change (readScenario? _).map some = some config.scenario at hread
      rw [readScenario?_of_speltTwice kind first second] at hread
      cases hread

/-! ### Texts and files -/

theorem load_eq_malformed {path text : String} (named : isJsonFile path = true) (h : ofJsonText? text = none) :
    load path (some text.toUTF8.toList) = .error .malformed := by
  rw [load, Option.bind_some, Json.toList_toUTF8, Json.fromUTF8?_bytesOf]
  simp only [named, if_true, h]

/-- **A configuration is read back as it was, in whatever spelling it was written.** It is written with all settings,
under their first spellings. Its text gives the same configuration, and so does any text of it after settings took their
other spelling, were left out where they are nothing, and had other keys added beside them. No text that gives a setting
under both of its spellings is a configuration, and a file of it is malformed. -/
theorem survives_respelling {config : Config} (sound : config.Sound) (exact : ∀ x ∈ config.probability?, Json.Exact x) :
    config.UnderFirstNames
      ∧ (∀ spacing : Json.Spacing, ofJsonText? (config.toJson.textWith spacing) = some config)
      ∧ (∀ {json : Json}, Relation.ReflTransGen Respelt config.toJson json →
          ∀ {text : String}, Json.ofText? text = some json → ofJsonText? text = some config)
      ∧ ∀ {json : Json}, SpeltTwice json → ∀ {text : String}, Json.ofText? text = some json →
          ofJsonText? text = none
            ∧ ∀ {path : String}, isJsonFile path = true → load path (some text.toUTF8.toList) = .error .malformed := by
  refine ⟨config.underFirstNames, ofJsonText?_textWith sound exact, fun {json} changes {text} htext => ?_,
    fun {json} twice {text} htext => ?_⟩
  · show (Json.ofText? text).bind read? = some config
    rw [htext]
    exact read?_of_reflTransGen changes (read?_toJson sound exact)
  · have hnone : ofJsonText? text = none := by
      show (Json.ofText? text).bind read? = none
      rw [htext]
      exact read?_of_speltTwice twice
    exact ⟨hnone, fun {path} named => load_eq_malformed named hnone⟩

/-- Product requests in one stage, half of them for the first range. -/
def evenSplit : Config where
  baseUrl := some "http://localhost:8080"
  scenario := some (.popularProducts none none (some 0.5) none)
  stages := some [⟨"15s", 10⟩]
  thinkTime := some ⟨"1s", "3s"⟩

/-- Its scenario with the given settings before those that follow the first range. -/
def evenScenario (settings : List (String × Json)) : Json :=
  .ofMembers (("kind", .ofString "popular-products") :: settings
    ++ [("cold", .null), ("hot_probability", .ofDouble 0.5), ("cache_hit_threshold", .null)])

/-- Its members in few words: three of them under the given keys, and the scenario with the given settings. -/
def evenMembers (root stages pause : String) (settings : List (String × Json)) : List (String × Json) :=
  [(root, .ofString "http://localhost:8080"), ("scenario", evenScenario settings),
    (stages, .array [StageEntry.toJson ⟨"15s", 10⟩]), (pause, ThinkTimeEntry.toJson ⟨"1s", "3s"⟩)]

/-- `evenSplit` in few words, with a remark. -/
def evenShort : Json :=
  .ofMembers (evenMembers "baseUrl" "schedule" "thinkTime" [] ++ [("remark", .ofString "in short")])

/-- The other spelling of three settings. -/
def otherSpelling : String → String
  | "base_url" => "baseUrl"
  | "stages" => "schedule"
  | "think_time" => "thinkTime"
  | key => key

/-- Two schedules under the two spellings of one setting. -/
def twoSchedules : Json :=
  .ofMembers [("stages", .array [StageEntry.toJson ⟨"15s", 10⟩]), ("schedule", .array [])]

/-- Two coupons under the two spellings of one setting. -/
def twoCoupons : Json :=
  .ofMembers [("scenario", .ofMembers [("kind", .ofString "coupon-issue"), ("coupon_id", .ofWord 1),
    ("couponId", .ofWord 2)])]

/-- Settings that are nothing are left out, three take their other spelling, and a remark is added. -/
theorem respelt_evenShort : Relation.ReflTransGen Respelt evenSplit.toJson evenShort := by
  have homitted : Relation.ReflTransGen Respelt evenSplit.toJson
      (.ofMembers (evenMembers "base_url" "stages" "think_time" [("hot", .null)])) := by
    simp only [evenSplit, toJson, ScenarioEntry.toJson, Json.ofOption]
    exact reflTransGen_omitted (by decide +kernel) []
  have hrenamed : Relation.ReflTransGen Respelt
      (.ofMembers (evenMembers "base_url" "stages" "think_time" [("hot", .null)]))
      (.ofMembers (evenMembers "baseUrl" "schedule" "thinkTime" [("hot", .null)])) :=
    reflTransGen_renamed otherSpelling (by decide +kernel) []
  have hinside : ScenarioRespelt (evenScenario [("hot", .null)]) (evenScenario []) :=
    .popularProducts List.mem_cons_self
      (@Format.Respelt.omitted _ _ productFields Untouched [("kind", Json.ofString "popular-products")] _
        ⟨"hot", []⟩ "hot" .null List.mem_cons_self List.mem_cons_self rfl)
  have hchanged : Respelt (.ofMembers (evenMembers "baseUrl" "schedule" "thinkTime" [("hot", .null)]))
      (.ofMembers (evenMembers "baseUrl" "schedule" "thinkTime" [])) :=
    .setting (@Format.Respelt.changed _ _ settingFields Inside [("baseUrl", _)] _ ⟨"scenario", []⟩ "scenario" _ _
      (List.mem_cons_of_mem _ List.mem_cons_self) List.mem_cons_self hinside)
  have hadded : Respelt (.ofMembers (evenMembers "baseUrl" "schedule" "thinkTime" [])) evenShort :=
    @Respelt.added (evenMembers "baseUrl" "schedule" "thinkTime" []) [] "remark" (.ofString "in short") (by decide)
  exact ((homitted.trans hrenamed).tail hchanged).tail hadded

theorem evenSplit_survives :
    evenSplit.Sound ∧ (∀ x ∈ evenSplit.probability?, Json.Exact x)
      ∧ Relation.ReflTransGen Respelt evenSplit.toJson evenShort ∧ SpeltTwice twoSchedules ∧ SpeltTwice twoCoupons
      ∧ evenSplit.UnderFirstNames
      ∧ ofJsonText? (evenSplit.toJson.textWith ⟨true, 0⟩) = some evenSplit
      ∧ ofJsonText? (evenShort.textWith ⟨false, 0⟩) = some evenSplit
      ∧ ofJsonText? (twoSchedules.textWith ⟨false, 0⟩) = none
      ∧ ofJsonText? (twoCoupons.textWith ⟨false, 0⟩) = none
      ∧ load "run.json" (some (twoCoupons.textWith ⟨false, 0⟩).toUTF8.toList) = .error .malformed := by
  have hprobability {x : Binary64} (mem : x ∈ evenSplit.probability?) : 0.5 = x := Option.some.inj mem
  have hfinite : (0.5 : Binary64).isFinite = true := by decide +kernel
  have hreread : Json.Exact 0.5 := by decide +kernel
  have hstages {stages : List StageEntry} (mem : stages ∈ evenSplit.stages) : [⟨"15s", 10⟩] = stages := Option.some.inj mem
  have hsigned : ∀ stage ∈ ([⟨"15s", 10⟩] : List StageEntry), Json.Signed stage.target := by
    simp [Json.Signed, signedLimit]
  have hsound : evenSplit.Sound := {
    targets := fun stages mem => hstages mem ▸ hsigned
    probability := fun x mem => hprobability mem ▸ hfinite }
  have hexact : ∀ x ∈ evenSplit.probability?, Json.Exact x := fun x mem => hprobability mem ▸ hreread
  have hschedules : SpeltTwice twoSchedules :=
    @SpeltTwice.setting _ ⟨"stages", ["schedule"]⟩ "schedule" _ _
      (List.mem_cons_of_mem _ (List.mem_cons_of_mem _ List.mem_cons_self)) List.mem_cons_self List.mem_cons_self
      (List.mem_cons_of_mem _ List.mem_cons_self)
  have hcoupons : SpeltTwice twoCoupons :=
    .coupon List.mem_cons_self List.mem_cons_self (List.mem_cons_of_mem _ List.mem_cons_self)
      (List.mem_cons_of_mem _ (List.mem_cons_of_mem _ List.mem_cons_self))
  have hevenText : Json.ofText? (evenShort.textWith ⟨false, 0⟩) = some evenShort :=
    Json.ofText?_textWith (Json.written_ofMembers (by
      simp [evenMembers, evenScenario, Json.Written, Json.ItemsWritten, Json.ofString, Json.written_ofMembers,
        Json.written_double, StageEntry.written_toJson, ThinkTimeEntry.toJson])) _
  have hschedulesText : Json.ofText? (twoSchedules.textWith ⟨false, 0⟩) = some twoSchedules :=
    Json.ofText?_textWith (Json.written_ofMembers (by
      simp [Json.Written, Json.ItemsWritten, StageEntry.written_toJson])) _
  have hcouponsText : Json.ofText? (twoCoupons.textWith ⟨false, 0⟩) = some twoCoupons :=
    Json.ofText?_textWith (Json.written_ofMembers (by
      simp [Json.Written, Json.ofString, Json.written_ofMembers, Json.written_word])) _
  obtain ⟨hnames, hwritten, hrespelt, hrejected⟩ := survives_respelling hsound hexact
  obtain ⟨hcouponsNone, hload⟩ := hrejected hcoupons hcouponsText
  exact ⟨hsound, hexact, respelt_evenShort, hschedules, hcoupons, hnames, hwritten _,
    hrespelt respelt_evenShort hevenText, (hrejected hschedules hschedulesText).1, hcouponsNone, hload rfl⟩

end LoadTest.Config
