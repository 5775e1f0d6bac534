import LoadTest.Proofs.Metric.Stored
import LoadTest.Report.Csv
import LoadTest.Report.Text

/-!
# LoadTest.Proofs.Report.Stored

Reports written as JSON and read back. **What comes back is the report without the samples of its trends, with each
double as its number is read** (`Report.ofJson?_toJson`), which is some double whenever it was finite. Where the
doubles are read back as they were, only the samples are lost (`Report.reread?_eq_some`), and none of the texts of a
report shows a sample, so they are the same before and after. All that is asked of a report for this is that its
doubles are finite and its inventory has 64 bits (`Report.Sound`). The report of a run is so, and so is any that was
read.
-/

namespace LoadTest

open LoadTest.Metric Format Threshold

/-! ### Parts of a report -/

/-- Its numbers are integers of 64 bits. -/
structure Inventory.Signed (i : Inventory) : Prop where
  before : Json.Signed i.before
  after : Json.Signed i.after
  consumed : Json.Signed i.consumed

/-- A double that is not finite is written as nothing, and so is none at all. -/
theorem optional?_ofOption (observed : Option Binary64) :
    optional? double? (Json.ofOption Json.ofDouble observed) = some (observed.bind Json.reread?) := by
  cases observed with
  | none => rfl
  | some x =>
      cases x with
      | finite negative units representable =>
          obtain ⟨numeral, hnumber⟩ := Json.ofDouble_finite negative units representable
          obtain ⟨y, hread⟩ := Option.isSome_iff_exists.mp
            (Json.isSome_reread?_iff (x := .finite negative units representable) |>.mpr rfl)
          calc optional? double? (Json.ofDouble (.finite negative units representable))
            _ = (Json.reread? (.finite negative units representable)).map some := by
                rw [Json.reread?, hnumber]
                rfl
            _ = some (Json.reread? (.finite negative units representable)) := by
                rw [hread]
                rfl
      | _ => rfl

/-! ### Observed values -/

namespace Threshold.Spec

variable {x : Binary64}

theorem isFinite_of_stored? {t : TrendSummary} (finite : ∀ figure ∈ t.figures, figure.2.isFinite = true)
    {p : Binary64} (h : t.stored? p = some x) : x.isFinite = true := by
  simp only [TrendSummary.figures, List.forall_mem_cons] at finite
  obtain ⟨-, hmin, hmed, hmax, hp90, hp95, hp99, -⟩ := finite
  unfold TrendSummary.stored? at h
  split_ifs at h <;> cases h
  · exact hmed
  · exact hp90
  · exact hp95
  · exact hp99
  · exact hmax
  · exact hmin
  · exact Binary64.hasUnits_zero.isFinite

theorem isFinite_of_trendValue? {t : TrendSummary} (finite : ∀ figure ∈ t.figures, figure.2.isFinite = true)
    {aggregate : Aggregate} (h : trendValue? t aggregate = some x) : x.isFinite = true := by
  cases aggregate with
  | percentile p =>
      change t.percentile? p = some x at h
      unfold TrendSummary.percentile? at h
      split at h
      · exact isFinite_of_stored? finite h
      · cases h
        exact (Duration.within_toMillis _).isFinite
  | count =>
      cases h
      exact Binary64.isFinite_ofNat t.count.toNat_lt
  | rate => cases h
  | _ =>
      cases h
      simp only [TrendSummary.figures, List.forall_mem_cons] at finite
      simp only [finite]

/-- A rate per second is bounded, since the shortest time is a nanosecond. -/
theorem isFinite_of_counterValue? {total : UInt64} {elapsed : Duration} {aggregate : Aggregate}
    (h : counterValue? total elapsed aggregate = some x) : x.isFinite = true := by
  cases aggregate with
  | count =>
      cases h
      exact Binary64.isFinite_ofNat total.toNat_lt
  | rate =>
      simp only [counterValue?, Option.some.injEq] at h
      rw [← h]
      split
      · next hpos =>
        have hseconds := (Binary64.hasUnits_zero.lt_iff elapsed.hasUnits_toSeconds).mp hpos
        have htotal := Binary64.within_ofQuotient false (Nat.le_of_lt total.toNat_lt)
        exact (Binary64.Within.div (by decide) htotal elapsed.hasUnits_toSeconds
          (Duration.one_le_secondUnits hseconds)).isFinite
      · exact Binary64.hasUnits_zero.isFinite
  | _ => cases h

/-- **What is observed is finite.** -/
theorem isFinite_of_observed? {spec : Spec} {s : Snapshot} {elapsed : Duration}
    (finite : ∀ x ∈ s.doubles, x.isFinite = true) (h : spec.observed? s elapsed = some x) : x.isFinite = true := by
  obtain ⟨rates, trends⟩ := Snapshot.forall_mem_doubles.mp finite
  unfold observed? at h
  split at h
  · obtain ⟨t, hfound, hvalue⟩ := Option.bind_eq_some_iff.mp h
    exact isFinite_of_trendValue? (trends _ (Table.mem_entries_iff.mpr hfound)) hvalue
  · split at h
    · rw [← Option.some.inj h, Snapshot.rate]
      cases hfound : s.rates.find? spec.metric with
      | none =>
          rw [Option.map_none, Option.getD_none]
          exact Binary64.hasUnits_zero.isFinite
      | some rate =>
          rw [Option.map_some, Option.getD_some]
          exact rates _ (Table.mem_entries_iff.mpr hfound)
    · cases h
  · exact isFinite_of_counterValue? h
  · cases h

end Threshold.Spec

namespace Report

theorem inventory?_inventoryJson {i : Inventory} (signed : i.Signed) :
    inventory? (inventoryJson i) = some i := by
  have hbefore := Json.signed?_ofInt signed.before
  have hafter := Json.signed?_ofInt signed.after
  have hconsumed := Json.signed?_ofInt signed.consumed
  rw [inventory?, inventoryJson]
  refine (Json.bind_ofMembers ["before", "after", "consumed"] (by decide) (by simp)).trans ?_
  simp [required?_recordOf, hbefore, hafter, hconsumed, List.lookup_cons]

end Report

/-- The outcome with the value that is read of its number, if there is one. -/
def Threshold.Result.reread (result : Threshold.Result) : Threshold.Result :=
  { result with observed := result.observed.bind Json.reread? }

namespace Report

theorem result?_resultJson (result : Threshold.Result) : result? (resultJson result) = some result.reread := by
  obtain ⟨metric, source, observed, passed, description⟩ := result
  rw [result?, resultJson]
  refine (Json.bind_ofMembers ["metric", "expression", "observed", "passed", "description"] (by decide)
    (by cases description <;> simp)).trans ?_
  cases description <;>
    simp [required?_recordOf, maybe?_recordOf, withDefault?_recordOf, Json.text?_ofString,
      Json.optional?_ofString, Json.bool?_bool, optional?_ofOption, List.lookup_cons, Threshold.Result.reread]

/-! ### Round trip -/

/-- The report without the samples of its trends. -/
def withoutSamples (r : Report) : Report := { r with metrics := r.metrics.withoutSamples }

/-- The doubles in a report. -/
def doubles (r : Report) : List Binary64 := r.metrics.doubles ++ r.thresholds.filterMap (·.observed)

theorem forall_mem_doubles {r : Report} {p : Binary64 → Prop} : (∀ x ∈ r.doubles, p x)
    ↔ (∀ x ∈ r.metrics.doubles, p x) ∧ ∀ result ∈ r.thresholds, ∀ x ∈ result.observed, p x := by
  rw [doubles, List.forall_mem_append]
  simp only [List.mem_filterMap, forall_exists_index, and_imp]
  exact and_congr_right fun _ => ⟨fun h result mem x hx => h x result mem hx, fun h x result mem hx => h result mem x hx⟩

/-- The report with the doubles that are read of their numbers, and without its samples. -/
def reread? (r : Report) : Option Report :=
  r.metrics.reread?.map fun metrics => { r with metrics, thresholds := r.thresholds.map (·.reread) }

/-- **A report is read back double by double,** without its samples. -/
theorem ofJson?_toJson {r : Report} (signed : ∀ i ∈ r.inventory, i.Signed) : ofJson? r.toJson = r.reread? := by
  have htags := Json.table?_ofTable_self Json.text?_ofString r.tags
  have houtcomes := Json.table?_ofTable_self Json.word?_ofWord r.outcomes
  have hthresholds : list? result? (.array (r.thresholds.map resultJson)) = some (r.thresholds.map (·.reread)) :=
    Json.list?_array fun result _ => result?_resultJson result
  obtain ⟨scenario, tags, startedAt, runMillis, peakUsers, iterations, outcomes, metrics, thresholds, passed,
    aborted, inventory⟩ := r
  have hinventory : ∀ i ∈ inventory, optional? inventory? (inventoryJson i) = some (some i) := by
    intro i mem
    show (inventory? (inventoryJson i)).map some = some (some i)
    rw [inventory?_inventoryJson (signed i mem)]
    rfl
  rw [ofJson?, toJson]
  refine (Json.bind_ofMembers ["scenario", "tags", "started_at", "run_duration_ms", "peak_vus", "iterations",
    "outcomes", "metrics", "thresholds", "passed", "aborted", "inventory"] (by decide)
    (by cases inventory <;> simp [members])).trans ?_
  cases inventory <;>
    simp [required?_recordOf, withDefault?_recordOf, Json.text?_ofString, Json.bool?_bool,
      Json.word?_ofWord, members, htags, houtcomes, Snapshot.ofJson?_toJson, hthresholds, hinventory,
      List.lookup_cons, reread?, Option.map_eq_bind]

/-- A report whose doubles are read back as they were loses its samples only. -/
theorem reread?_eq_some {r : Report} (kept : ∀ x ∈ r.doubles, Json.reread? x = some x) :
    r.reread? = some r.withoutSamples := by
  obtain ⟨hmetrics, hresults⟩ := forall_mem_doubles.mp kept
  have hthresholds : r.thresholds.map (·.reread) = r.thresholds := by
    refine (List.map_congr_left fun result mem => ?_).trans (List.map_id _)
    have hobserved : result.observed.bind Json.reread? = result.observed := by
      cases hsome : result.observed with
      | none => rfl
      | some x => exact hresults result mem x hsome
    rw [Threshold.Result.reread, hobserved]
    rfl
  rw [reread?, Snapshot.reread?_eq_some hmetrics, Option.map_some, hthresholds]
  rfl

theorem isSome_reread?_iff {r : Report} : r.reread?.isSome = true ↔ ∀ x ∈ r.metrics.doubles, x.isFinite = true := by
  rw [reread?, Option.isSome_map, Snapshot.isSome_reread?_iff]

/-- A report can be written as text. -/
theorem written_toJson (r : Report) : r.toJson.Written := by
  have hstring : ∀ s : String, (Json.ofString s).Written := fun _ => rfl
  have hbool : ∀ b : Bool, (Json.bool b).Written := fun _ => trivial
  have hinventory : ∀ i : Inventory, (inventoryJson i).Written := fun i =>
    Json.written_ofMembers (by simp [Json.ofInt, Json.Written, Json.written_ofInt])
  have hresult : ∀ result : Threshold.Result, (resultJson result).Written := by
    intro result
    have hobserved : (Json.ofOption Json.ofDouble result.observed).Written := by
      cases result.observed with
      | none => trivial
      | some x => exact Json.written_double x
    refine Json.written_ofMembers (List.forall_mem_append.mpr ⟨by simp [hstring, hbool, hobserved], ?_⟩)
    cases result.description <;> simp [hstring]
  have htags : (Json.ofTable Json.ofString r.tags).Written := Json.written_ofTable fun _ _ => hstring _
  have houtcomes : (Json.ofTable Json.ofWord r.outcomes).Written :=
    Json.written_ofTable fun entry _ => Json.written_word entry.2
  have hthresholds : (Json.array (r.thresholds.map resultJson)).Written :=
    Json.itemsWritten_iff.mpr (List.forall_mem_map.mpr fun result _ => hresult result)
  refine Json.written_ofMembers (List.forall_mem_append.mpr ⟨?_, ?_⟩)
  · simp [hstring, hbool, htags, houtcomes, hthresholds, Json.written_word, Snapshot.written_toJson]
  · cases r.inventory <;> simp [hinventory]

/-- What reading a report relies on: its doubles are finite, and its inventory has 64 bits. -/
structure Sound (r : Report) : Prop where
  finite : ∀ x ∈ r.doubles, x.isFinite = true
  inventory : ∀ i ∈ r.inventory, i.Signed

theorem ofText?_eq_reread? {r : Report} (signed : ∀ i ∈ r.inventory, i.Signed) (spacing : Json.Spacing) :
    ofText? (r.toJson.textWith spacing) = r.reread? := by
  show (Json.ofText? (r.toJson.textWith spacing)).bind ofJson? = r.reread?
  rw [Json.ofText?_textWith r.written_toJson, Option.bind_some, ofJson?_toJson signed]

/-- **A report written as text is read back without its samples,** if its doubles are. -/
theorem ofText?_textWith {r : Report} (sound : r.Sound) (exact : ∀ x ∈ r.doubles, Json.Exact x)
    (spacing : Json.Spacing) : ofText? (r.toJson.textWith spacing) = some r.withoutSamples := by
  rw [ofText?_eq_reread? sound.inventory]
  exact reread?_eq_some fun x mem => exact x mem (sound.finite x mem)

/-! ### Where reports come from -/

/-- The report of a run has finite doubles. -/
theorem sound_build {sink : Sink} {s : Snapshot} (taken : sink.snapshot? = some s) {info : RunInfo}
    (signed : ∀ i ∈ info.inventory, i.Signed) (specs : List Spec) (elapsed : Duration) :
    (build info s (evaluate specs s elapsed)).Sound := by
  refine ⟨forall_mem_doubles.mpr ⟨Sink.isFinite_of_snapshot? taken, ?_⟩, signed⟩
  intro result mem x hx
  obtain ⟨spec, -, rfl⟩ := List.mem_map.mp mem
  exact spec.isFinite_of_observed? (Sink.isFinite_of_snapshot? taken) hx

/-- What an optional value holds was read. -/
theorem of_mem_optional? {α : Type} {read : Json → Option α} {json : Json} {found : Option α} {a : α}
    (h : optional? read json = some found) (mem : a ∈ found) : read json = some a := by
  obtain ⟨absent, -, h⟩ := Option.bind_eq_some_iff.mp h
  cases absent with
  | true =>
      cases h
      cases mem
  | false =>
      obtain ⟨value, hvalue, rfl⟩ := Option.map_eq_some_iff.mp h
      cases mem
      exact hvalue

theorem isFinite_of_result? {json : Json} {result : Threshold.Result} (h : result? json = some result) :
    ∀ x ∈ result.observed, x.isFinite = true := by
  simp only [result?, Option.bind_eq_bind, Option.bind_eq_some_iff] at h
  obtain ⟨record, -, metric, -, source, -, observed, hobserved, passed, -, description, -, h⟩ := h
  cases h
  intro x mem
  unfold Record.maybe? at hobserved
  split at hobserved
  · exact Json.isFinite_of_double? (of_mem_optional? hobserved mem)
  · split at hobserved
    · cases hobserved
    · cases hobserved
      cases mem

theorem signed_of_inventory? {json : Json} {i : Inventory} (h : inventory? json = some i) : i.Signed := by
  have hrequired : ∀ {record : Record Json} {name : String} {i : Int},
      record.required? name signed? = some i → Json.Signed i := fun h => by
    obtain ⟨json, -, h⟩ := Option.bind_eq_some_iff.mp h
    exact Json.signed_of_signed? h
  simp only [inventory?, Option.bind_eq_bind, Option.bind_eq_some_iff] at h
  obtain ⟨record, -, before, hbefore, after, hafter, consumed, hconsumed, h⟩ := h
  cases h
  exact ⟨hrequired hbefore, hrequired hafter, hrequired hconsumed⟩

/-- Where the figures of a report that was read come from. -/
theorem parts_of_ofJson? {json : Json} {r : Report} (h : ofJson? json = some r) : ∃ record : Record Json,
    record.required? "metrics" Snapshot.ofJson? = some r.metrics
      ∧ record.required? "thresholds" (list? result?) = some r.thresholds
      ∧ record.withDefault? "inventory" none (optional? inventory?) = some r.inventory := by
  unfold ofJson? at h
  obtain ⟨record, -, h⟩ := Option.bind_eq_some_iff.mp h
  obtain ⟨scenario, -, h⟩ := Option.bind_eq_some_iff.mp h
  obtain ⟨tags, -, h⟩ := Option.bind_eq_some_iff.mp h
  obtain ⟨startedAt, -, h⟩ := Option.bind_eq_some_iff.mp h
  obtain ⟨runMillis, -, h⟩ := Option.bind_eq_some_iff.mp h
  obtain ⟨peakUsers, -, h⟩ := Option.bind_eq_some_iff.mp h
  obtain ⟨iterations, -, h⟩ := Option.bind_eq_some_iff.mp h
  obtain ⟨outcomes, -, h⟩ := Option.bind_eq_some_iff.mp h
  obtain ⟨metrics, hmetrics, h⟩ := Option.bind_eq_some_iff.mp h
  obtain ⟨thresholds, hthresholds, h⟩ := Option.bind_eq_some_iff.mp h
  obtain ⟨passed, -, h⟩ := Option.bind_eq_some_iff.mp h
  obtain ⟨aborted, -, h⟩ := Option.bind_eq_some_iff.mp h
  obtain ⟨inventory, hinventory, h⟩ := Option.bind_eq_some_iff.mp h
  cases h
  exact ⟨record, hmetrics, hthresholds, hinventory⟩

/-- A report that was read has finite doubles. -/
theorem sound_of_ofJson? {json : Json} {r : Report} (h : ofJson? json = some r) : r.Sound := by
  obtain ⟨record, hmetrics, hthresholds, hinventory⟩ := parts_of_ofJson? h
  constructor
  · refine forall_mem_doubles.mpr ⟨?_, fun result mem => ?_⟩
    · obtain ⟨json, -, hmetrics⟩ := Option.bind_eq_some_iff.mp hmetrics
      exact Snapshot.isFinite_of_ofJson? hmetrics
    · obtain ⟨json, -, hlist⟩ := Option.bind_eq_some_iff.mp hthresholds
      obtain ⟨items, -, hresults⟩ := Option.bind_eq_some_iff.mp hlist
      obtain ⟨item, -, hresult⟩ := Table.mem_of_mapM hresults mem
      exact isFinite_of_result? hresult
  · intro i mem
    unfold Record.withDefault? at hinventory
    split at hinventory
    · exact signed_of_inventory? (of_mem_optional? hinventory mem)
    · rw [← Option.some.inj hinventory] at mem
      cases mem

/-- A report was made of what a sink held and its verdict, or read from a text. -/
inductive Made : Report → Prop where
  | built {sink : Sink} {s : Snapshot} (taken : sink.snapshot? = some s) (info : RunInfo)
    (signed : ∀ i ∈ info.inventory, i.Signed) (specs : List Spec) (elapsed : Duration) :
    Made (build info s (evaluate specs s elapsed))
  | read {text : String} {r : Report} (read : ofText? text = some r) : Made r

theorem Made.sound {r : Report} (made : r.Made) : r.Sound := by
  cases made with
  | built taken info signed specs elapsed => exact sound_build taken signed specs elapsed
  | read h =>
      obtain ⟨json, -, h⟩ := Option.bind_eq_some_iff.mp h
      exact sound_of_ofJson? h

/-! ### Texts -/

theorem toJson_withoutSamples (r : Report) : r.withoutSamples.toJson = r.toJson := by
  have htrends : Json.ofTable TrendSummary.toJson (r.metrics.trends.map TrendSummary.withoutSamples)
      = Json.ofTable TrendSummary.toJson r.metrics.trends := by
    rw [Json.ofTable, Table.map, List.map_map]
    rfl
  have hmetrics : r.metrics.withoutSamples.toJson = r.metrics.toJson := by
    simp only [Snapshot.toJson, Snapshot.withoutSamples, htrends]
  simp only [toJson, members, withoutSamples, hmetrics]

theorem trendRows_withoutSamples (name : String) (t : TrendSummary) :
    trendRows name t.withoutSamples = trendRows name t := by
  rw [trendRows, TrendSummary.figures_withoutSamples, TrendSummary.count_withoutSamples, trendRows]

theorem csv_withoutSamples (r : Report) : r.withoutSamples.csv = r.csv := by
  have hrows : r.withoutSamples.rows = r.rows := by
    unfold rows
    rw [withoutSamples, Snapshot.withoutSamples, Table.map]
    simp only [List.flatMap_map, trendRows_withoutSamples]
  unfold csv
  rw [hrows]

theorem latencyLines_withoutSamples (t : TrendSummary) : latencyLines t.withoutSamples = latencyLines t := by
  unfold latencyLines
  rw [TrendSummary.withoutSamples]

theorem trendLine_withoutSamples (name : String) (t : TrendSummary) :
    trendLine name t.withoutSamples = trendLine name t := by
  unfold trendLine
  rw [TrendSummary.withoutSamples]

theorem text_withoutSamples (r : Report) : r.withoutSamples.text = r.text := by
  have hrequests : r.withoutSamples.requestLines = r.requestLines := by
    have hlatency : ∀ found : Option TrendSummary,
        (found.map TrendSummary.withoutSamples).map latencyLines = found.map latencyLines := fun found => by
      rw [Option.map_map]
      exact congrArg (found.map ·) (funext latencyLines_withoutSamples)
    unfold requestLines
    rw [withoutSamples, Snapshot.withoutSamples, Table.find?_map, hlatency]
    rfl
  have hlines : r.withoutSamples.lines = r.lines := by
    unfold lines
    rw [hrequests, withoutSamples, Snapshot.withoutSamples, Table.map]
    simp only [List.filter_map, List.map_map, Function.comp_def, trendLine_withoutSamples]
    rfl
  rw [text, hlines, ← text]

end Report

end LoadTest
