import LoadTest.Metric.Stored
import LoadTest.Proofs.Format.Record
import LoadTest.Proofs.Json.Reread
import LoadTest.Proofs.Metric.Totals

/-!
# LoadTest.Proofs.Metric.Stored

Snapshots written as JSON and read back. **What comes back is the snapshot without its samples, with each double as
its number is read** (`Snapshot.ofJson?_toJson`). There is such a snapshot exactly if the doubles are finite
(`Snapshot.isSome_reread?_iff`), and they are, whether they were taken from a sink or read: times are bounded by the
longest duration, and shares by one.
-/

namespace LoadTest.Metric

open Format Binary64

attribute [local irreducible] Binary64.one

/-! ### Round trip -/

/-- The figures without the samples they were taken from. -/
def TrendSummary.withoutSamples (t : TrendSummary) : TrendSummary := { t with sorted := [] }

@[simp] theorem TrendSummary.figures_withoutSamples (t : TrendSummary) :
    t.withoutSamples.figures = t.figures := rfl

@[simp] theorem TrendSummary.count_withoutSamples (t : TrendSummary) : t.withoutSamples.count = t.count := rfl

/-- The same series and figures, without the samples of the trends. -/
def Snapshot.withoutSamples (s : Snapshot) : Snapshot :=
  { s with trends := s.trends.map TrendSummary.withoutSamples }

/-- The doubles in a snapshot. -/
def Snapshot.doubles (s : Snapshot) : List Binary64 :=
  s.rates.entries.map (·.2.rate) ++ s.trends.entries.flatMap fun entry => entry.2.figures.map (·.2)

theorem Snapshot.forall_mem_doubles {s : Snapshot} {p : Binary64 → Prop} : (∀ x ∈ s.doubles, p x)
    ↔ (∀ entry ∈ s.rates.entries, p entry.2.rate)
      ∧ ∀ entry ∈ s.trends.entries, ∀ figure ∈ entry.2.figures, p figure.2 := by
  rw [doubles, List.forall_mem_append, List.forall_mem_map, List.forall_mem_flatMap]
  simp only [List.forall_mem_map]

/-- The rate with the share that is read of its number. -/
def RateSummary.reread? (r : RateSummary) : Option RateSummary :=
  (Json.reread? r.rate).map fun rate => { r with rate }

/-- The trend with the figures that are read of their numbers, and without its samples. -/
def TrendSummary.reread? (t : TrendSummary) : Option TrendSummary := do
  pure {
    count := t.count
    avg := ← Json.reread? t.avg
    min := ← Json.reread? t.min
    med := ← Json.reread? t.med
    max := ← Json.reread? t.max
    p90 := ← Json.reread? t.p90
    p95 := ← Json.reread? t.p95
    p99 := ← Json.reread? t.p99
    sorted := [] }

/-- The snapshot with the doubles that are read of their numbers, and without its samples. -/
def Snapshot.reread? (s : Snapshot) : Option Snapshot := do
  pure ⟨s.counters, ← s.rates.mapM? RateSummary.reread?, ← s.trends.mapM? TrendSummary.reread?⟩

theorem RateSummary.ofJson?_toJson (r : RateSummary) : ofJson? r.toJson = r.reread? := by
  rw [ofJson?, toJson]
  refine (Json.bind_ofMembers ["hits", "total", "rate"] (by decide) (by simp)).trans ?_
  simp [required?_recordOf, Json.word?_ofWord, List.lookup_cons, reread?, Json.reread?, Option.map_eq_bind]

theorem TrendSummary.ofJson?_toJson (t : TrendSummary) : ofJson? t.toJson = t.reread? := by
  rw [ofJson?, toJson]
  refine (Json.bind_ofMembers ["count", "avg", "min", "med", "max", "p90", "p95", "p99"] (by decide)
    (by simp [figures])).trans ?_
  simp [required?_recordOf, Json.word?_ofWord, figures, List.lookup_cons, reread?, Json.reread?]

/-- **A snapshot is read back double by double,** without its samples. -/
theorem Snapshot.ofJson?_toJson (s : Snapshot) : ofJson? s.toJson = s.reread? := by
  have hcounters := Json.table?_ofTable_self Json.word?_ofWord s.counters
  have hrates : table? RateSummary.ofJson? (Json.ofTable RateSummary.toJson s.rates)
      = s.rates.mapM? RateSummary.reread? := by
    simp only [Json.table?_ofTable, RateSummary.ofJson?_toJson]
  have htrends : table? TrendSummary.ofJson? (Json.ofTable TrendSummary.toJson s.trends)
      = s.trends.mapM? TrendSummary.reread? := by
    simp only [Json.table?_ofTable, TrendSummary.ofJson?_toJson]
  rw [ofJson?, toJson]
  refine (Json.bind_ofMembers ["counters", "rates", "trends"] (by decide) (by simp)).trans ?_
  simp [required?_recordOf, hcounters, hrates, htrends, List.lookup_cons, reread?]

/-- A snapshot whose doubles are read back as they were loses its samples only. -/
theorem Snapshot.reread?_eq_some {s : Snapshot} (kept : ∀ x ∈ s.doubles, Json.reread? x = some x) :
    s.reread? = some s.withoutSamples := by
  obtain ⟨rates, trends⟩ := forall_mem_doubles.mp kept
  have hrates : s.rates.mapM? RateSummary.reread? = some s.rates := by
    have hrate : ∀ entry ∈ s.rates.entries, entry.2.reread? = some entry.2 := by
      intro entry mem
      rw [RateSummary.reread?, rates entry mem]
      rfl
    rw [Table.mapM?_eq_some (g := id) hrate]
    simp [Table.map]
  have htrends : s.trends.mapM? TrendSummary.reread? = some (s.trends.map TrendSummary.withoutSamples) := by
    refine Table.mapM?_eq_some fun entry mem => ?_
    have hfigures := trends entry mem
    simp only [TrendSummary.figures, List.forall_mem_cons] at hfigures
    simp [TrendSummary.reread?, hfigures, TrendSummary.withoutSamples]
  rw [reread?, hrates, htrends]
  rfl

theorem RateSummary.isSome_reread?_iff {r : RateSummary} : r.reread?.isSome = true ↔ r.rate.isFinite = true := by
  rw [reread?, Option.isSome_map, Json.isSome_reread?_iff]

theorem TrendSummary.isSome_reread?_iff {t : TrendSummary} :
    t.reread?.isSome = true ↔ ∀ figure ∈ t.figures, figure.2.isFinite = true := by
  simp only [figures, List.forall_mem_cons, List.not_mem_nil, false_implies, implies_true, and_true,
    ← Json.isSome_reread?_iff, Option.isSome_iff_exists]
  constructor
  · rintro ⟨read, h⟩
    simp only [reread?, Option.bind_eq_bind, Option.bind_eq_some_iff] at h
    obtain ⟨avg, havg, min, hmin, med, hmed, max, hmax, p90, hp90, p95, hp95, p99, hp99, -⟩ := h
    exact ⟨⟨avg, havg⟩, ⟨min, hmin⟩, ⟨med, hmed⟩, ⟨max, hmax⟩, ⟨p90, hp90⟩, ⟨p95, hp95⟩, ⟨p99, hp99⟩⟩
  · rintro ⟨⟨avg, havg⟩, ⟨min, hmin⟩, ⟨med, hmed⟩, ⟨max, hmax⟩, ⟨p90, hp90⟩, ⟨p95, hp95⟩, ⟨p99, hp99⟩⟩
    simp [reread?, havg, hmin, hmed, hmax, hp90, hp95, hp99]

/-- **A snapshot is read back as some snapshot if its doubles are finite,** and not otherwise. -/
theorem Snapshot.isSome_reread?_iff {s : Snapshot} :
    s.reread?.isSome = true ↔ ∀ x ∈ s.doubles, x.isFinite = true := by
  have hparts : s.reread?.isSome = true ↔ (s.rates.mapM? RateSummary.reread?).isSome = true
      ∧ (s.trends.mapM? TrendSummary.reread?).isSome = true := by
    rw [reread?]
    cases s.rates.mapM? RateSummary.reread? <;> cases s.trends.mapM? TrendSummary.reread? <;> simp
  have hentries : ∀ {α β : Type} {f : α → Option β} {t : Table α},
      (t.mapM? f).isSome = true ↔ ∀ entry ∈ t.entries, (f entry.2).isSome = true := by
    intro α β f t
    rw [Table.mapM?, Option.isSome_map, Table.isSome_mapM_iff]
  rw [hparts, forall_mem_doubles, hentries, hentries]
  simp only [RateSummary.isSome_reread?_iff, TrendSummary.isSome_reread?_iff]

/-- A snapshot can be written as text. -/
theorem Snapshot.written_toJson (s : Snapshot) : s.toJson.Written := by
  refine Json.written_ofMembers ?_
  simp only [List.forall_mem_cons, List.not_mem_nil, false_implies, implies_true, and_true]
  refine ⟨Json.written_ofTable fun entry _ => Json.written_word entry.2,
    Json.written_ofTable fun entry _ => Json.written_ofMembers ?_,
    Json.written_ofTable fun entry _ => Json.written_ofMembers ?_⟩
  · simp [Json.written_word, Json.written_double]
  · simp [TrendSummary.figures, Json.written_word, Json.written_double]

/-- **A snapshot written as text is read back without its samples,** if its doubles are. -/
theorem Snapshot.bind_ofText? {s : Snapshot} (finite : ∀ x ∈ s.doubles, x.isFinite = true)
    (exact : ∀ x ∈ s.doubles, Json.Exact x) (spacing : Json.Spacing) :
    (Json.ofText? (s.toJson.textWith spacing)).bind ofJson? = some s.withoutSamples := by
  rw [Json.ofText?_textWith s.written_toJson, Option.bind_some, ofJson?_toJson]
  exact reread?_eq_some fun x mem => exact x mem (finite x mem)

/-! ### Doubles of a sink -/

theorem Rate.hits_le_total (r : Rate) : r.hits ≤ r.total := by
  show r.hits ≤ if r.observed ≤ r.hits then r.hits else r.observed
  split
  · exact UInt64.le_refl _
  · next hless => exact UInt64.le_of_lt (UInt64.not_le.mp hless)

theorem isFinite_share {hits total : UInt64} (hle : hits ≤ total) : (Rate.share hits total).isFinite = true := by
  rcases Nat.eq_zero_or_pos total.toNat with hnone | hpos
  · rw [Rate.share, if_pos (UInt64.toNat_inj.mp hnone)]
    exact hasUnits_zero.isFinite
  · exact (hasUnits_share hle hpos).1.isFinite

theorem TrendSummary.isFinite_of_ofSorted? {sorted : List Duration} {t : TrendSummary}
    (h : ofSorted? sorted = some t) : ∀ figure ∈ t.figures, figure.2.isFinite = true := by
  have hmillis : ∀ d : Duration, d.toMillis.isFinite = true := fun d => d.within_toMillis.isFinite
  have hend : ∀ sample : Option Duration, ((sample.map Duration.toMillis).getD 0).isFinite = true := by
    intro sample
    cases sample with
    | none =>
        rw [Option.map_none, Option.getD_none]
        exact hasUnits_zero.isFinite
    | some d =>
        rw [Option.map_some, Option.getD_some]
        exact hmillis d
  obtain ⟨total, med, p90, p95, p99, -, -, -, -, -, rfl⟩ := eq_of_ofSorted? h
  simp only [figures, List.forall_mem_cons, List.not_mem_nil, false_implies, implies_true, and_true]
  refine ⟨?_, hend _, hmillis med, hend _, hmillis p90, hmillis p95, hmillis p99⟩
  split
  · next hpos => exact isFinite_div_ofNat (hmillis total) hpos
  · exact hasUnits_zero.isFinite

/-- **Every double of a snapshot is finite.** -/
theorem Sink.isFinite_of_snapshot? {sink : Sink} {s : Snapshot} (taken : sink.snapshot? = some s) :
    ∀ x ∈ s.doubles, x.isFinite = true := by
  refine Snapshot.forall_mem_doubles.mpr ⟨fun entry mem => ?_, fun entry mem => ?_⟩
  · rw [Sink.rates_of_snapshot? taken] at mem
    obtain ⟨⟨name, rate⟩, -, rfl⟩ := List.mem_map.mp mem
    exact isFinite_share rate.hits_le_total
  · have hfound := Table.mem_entries_iff.mp mem
    rw [Sink.find?_trends_of_snapshot? taken] at hfound
    obtain ⟨trend, -, hsummary⟩ := Option.bind_eq_some_iff.mp hfound
    exact TrendSummary.isFinite_of_ofSorted? hsummary

/-- Three requests, of 10, 20 and 40 milliseconds. -/
def threeLatencies : Sink :=
  [10, 20, 40].foldl (fun sink millis => sink.sample "latency" (.ofMillis millis))
    (Sink.ofSeries [("latency", .trend)] Sink.defaultShards)

theorem sorted_threeLatencies : threeLatencies.trends.map (·.sorted)
    = ⟨[("latency", [.ofMillis 10, .ofMillis 20, .ofMillis 40])], by decide⟩ := by
  refine Table.ext ?_
  show [("latency", [Duration.ofMillis 10, .ofMillis 20, .ofMillis 40].mergeSort fun a b => decide (a ≤ b))] = _
  rw [List.mergeSort_of_pairwise (by decide)]

/-! ### Doubles that are read -/

theorem isFinite_of_required? {record : Record Json} {name : String} {x : Binary64}
    (h : record.required? name double? = some x) : x.isFinite = true := by
  obtain ⟨json, -, hx⟩ := Option.bind_eq_some_iff.mp h
  exact Json.isFinite_of_double? hx

/-- Every value of a table that is read was read. -/
theorem exists_of_table? {α : Type} {read : Json → Option α} {json : Json} {t : Table α}
    (h : table? read json = some t) {entry : String × α} (mem : entry ∈ t.entries) :
    ∃ value, read value = some entry.2 := by
  obtain ⟨entries, hentries, rfl⟩ := Option.map_eq_some_iff.mp h
  obtain ⟨members, -, hread⟩ := Option.bind_eq_some_iff.mp hentries
  obtain ⟨⟨key, value⟩, -, hentry⟩ := Table.mem_of_mapM hread (Table.mem_ofList mem)
  refine ⟨value, ?_⟩
  cases key with
  | text name =>
      obtain ⟨a, ha, hentry⟩ := Option.bind_eq_some_iff.mp hentry
      cases hentry
      exact ha
  | _ => cases hentry

theorem RateSummary.isFinite_of_ofJson? {json : Json} {r : RateSummary} (h : ofJson? json = some r) :
    r.rate.isFinite = true := by
  simp only [ofJson?, Option.bind_eq_bind, Option.bind_eq_some_iff] at h
  obtain ⟨record, -, hits, -, total, -, rate, hrate, h⟩ := h
  cases h
  exact isFinite_of_required? hrate

theorem TrendSummary.isFinite_of_ofJson? {json : Json} {t : TrendSummary} (h : ofJson? json = some t) :
    ∀ figure ∈ t.figures, figure.2.isFinite = true := by
  simp only [ofJson?, Option.bind_eq_bind, Option.bind_eq_some_iff] at h
  obtain ⟨record, -, count, -, avg, havg, min, hmin, med, hmed, max, hmax, p90, hp90, p95, hp95, p99, hp99, h⟩ := h
  cases h
  simp only [figures, List.forall_mem_cons, List.not_mem_nil, false_implies, implies_true, and_true]
  exact ⟨isFinite_of_required? havg, isFinite_of_required? hmin, isFinite_of_required? hmed,
    isFinite_of_required? hmax, isFinite_of_required? hp90, isFinite_of_required? hp95,
    isFinite_of_required? hp99⟩

theorem Snapshot.isFinite_of_ofJson? {json : Json} {s : Snapshot} (h : ofJson? json = some s) :
    ∀ x ∈ s.doubles, x.isFinite = true := by
  simp only [ofJson?, Option.bind_eq_bind, Option.bind_eq_some_iff] at h
  obtain ⟨record, -, counters, -, rates, hrates, trends, htrends, h⟩ := h
  cases h
  obtain ⟨_, -, hrates⟩ := Option.bind_eq_some_iff.mp hrates
  obtain ⟨_, -, htrends⟩ := Option.bind_eq_some_iff.mp htrends
  refine Snapshot.forall_mem_doubles.mpr ⟨fun entry mem => ?_, fun entry mem => ?_⟩
  · obtain ⟨value, hvalue⟩ := exists_of_table? hrates mem
    exact RateSummary.isFinite_of_ofJson? hvalue
  · obtain ⟨value, hvalue⟩ := exists_of_table? htrends mem
    exact TrendSummary.isFinite_of_ofJson? hvalue

end LoadTest.Metric
