import LoadTest.Proofs.Metric.Stored
import LoadTest.Proofs.Threshold.Observed

/-!
# LoadTest.Proofs.Threshold.Stored

Criteria judged again on a snapshot that was stored. **A stored snapshot says the same or nothing:** it says
nothing of percentiles that its trends do not name, and those are all that is lost with the samples
(`Spec.observed?_withoutSamples`). What has no value fails, so a verdict that passes on the stored snapshot
passes on the one that was taken.
-/

namespace LoadTest

open LoadTest.Metric Threshold Binary64

attribute [local irreducible] Binary64.one

/-! ### Percentiles of a summary -/

/-- A percentage that a summary does not name: it is neither an end of the scale nor one of the four. -/
def Metric.Unnamed (p : Binary64) : Prop := 0 < p ∧ p < 100 ∧ p ∉ [(50 : Binary64), 90, 95, 99]

instance (p : Binary64) : Decidable (Unnamed p) :=
  inferInstanceAs (Decidable (0 < p ∧ p < 100 ∧ p ∉ [(50 : Binary64), 90, 95, 99]))

theorem Metric.percentile_of_percentile? {sorted : List Duration} {p : Binary64} {d : Duration}
    (h : Metric.percentile? sorted p = some d) : percentile sorted p = d := by
  rw [percentile, h, Option.getD_some]

namespace Metric.TrendSummary

variable {t : TrendSummary} {sorted : List Duration} {p : Binary64}

theorem percentile?_of_ne_nil (h : t.sorted ≠ []) (p : Binary64) :
    t.percentile? p = some (percentile t.sorted p).toMillis := by
  rw [percentile?, if_neg (by simpa using h)]

theorem count_ne_zero (h : ofSorted? sorted = some t) (few : sorted.length ≤ 2 ^ 53 + 1) (hsome : sorted ≠ []) :
    t.count ≠ 0 := by
  intro hzero
  rw [count_of_ofSorted? h] at hzero
  have hnat := congrArg UInt64.toNat hzero
  rw [UInt64.toNat_ofNat_of_lt' (Nat.lt_of_le_of_lt few (by decide))] at hnat
  exact hsome (List.length_eq_zero_iff.mp hnat)

/-- Only the number itself is numerically equal to one of the four. -/
theorem stored?_eq (t : TrendSummary) (p : Binary64) : t.stored? p =
    if p = 50 then some t.med
    else if p = 90 then some t.p90
    else if p = 95 then some t.p95
    else if p = 99 then some t.p99
    else if 100 ≤ p then some t.max
    else if p ≤ 0 then some t.min
    else if t.count = 0 then some 0
    else none := by
  have h50 : p.eq 50 = true ↔ p = 50 := eq_ofNat_iff (by decide) (by decide)
  have h90 : p.eq 90 = true ↔ p = 90 := eq_ofNat_iff (by decide) (by decide)
  have h95 : p.eq 95 = true ↔ p = 95 := eq_ofNat_iff (by decide) (by decide)
  have h99 : p.eq 99 = true ↔ p = 99 := eq_ofNat_iff (by decide) (by decide)
  simp only [stored?, h50, h90, h95, h99]

/-- What a summary names is the percentile of its samples. -/
theorem stored?_of_named (h : ofSorted? sorted = some t) (few : sorted.length ≤ 2 ^ 53 + 1) (hsome : sorted ≠ [])
    (number : p.isNaN = false) (named : ¬ Unnamed p) :
    t.stored? p = some (percentile sorted p).toMillis := by
  have hfirst := List.head?_eq_some_head hsome
  have hlast := List.getLast?_eq_some_getLast hsome
  obtain ⟨total, med, p90, p95, p99, -, hmed, hp90, hp95, hp99, rfl⟩ := eq_of_ofSorted? h
  rw [stored?_eq]
  split
  · next heq => rw [heq, percentile_of_percentile? hmed]
  split
  · next heq => rw [heq, percentile_of_percentile? hp90]
  split
  · next heq => rw [heq, percentile_of_percentile? hp95]
  split
  · next heq => rw [heq, percentile_of_percentile? hp99]
  by_cases hhundred : 100 ≤ p
  · have hend := (percentile?_of_hundred_le hhundred hsome (by omega)).trans hlast
    rw [if_pos hhundred, percentile_of_percentile? hend, hlast, Option.map_some, Option.getD_some]
  by_cases hzero : p ≤ 0
  · have hend := (percentile?_of_le_zero hzero hsome (by omega)).trans hfirst
    rw [if_neg hhundred, if_pos hzero, percentile_of_percentile? hend, hfirst, Option.map_some, Option.getD_some]
  have hnot : p ∉ [(50 : Binary64), 90, 95, 99] := by simp [*]
  exact absurd ⟨lt_of_not_le hasUnits_zero.isNaN number hzero, lt_of_not_le number hasUnits_hundred.isNaN hhundred,
    hnot⟩ named

theorem stored?_of_unnamed (unnamed : Unnamed p) (hcount : t.count ≠ 0) : t.stored? p = none := by
  obtain ⟨hpos, hless, hnot⟩ := unnamed
  simp only [List.mem_cons, List.not_mem_nil, or_false, not_or] at hnot
  obtain ⟨h50, h90, h95, h99⟩ := hnot
  rw [stored?_eq, if_neg h50, if_neg h90, if_neg h95, if_neg h99, if_neg (not_le_of_lt hless),
    if_neg (not_le_of_lt hpos), if_neg hcount]

/-- **Without its samples a summary names the same percentiles,** apart from those that only samples tell. -/
theorem percentile?_withoutSamples (h : ofSorted? sorted = some t) (few : sorted.length ≤ 2 ^ 53 + 1)
    (number : p.isNaN = false) : t.withoutSamples.percentile? p
      = if sorted ≠ [] ∧ Unnamed p then none else t.percentile? p := by
  have hsorted := sorted_of_ofSorted? h
  have hwithout : t.withoutSamples.percentile? p = t.stored? p := rfl
  by_cases hsome : sorted = []
  · have hall : t.percentile? p = t.stored? p := by
      rw [percentile?, hsorted, hsome, List.isEmpty_nil, if_pos rfl]
    rw [if_neg (fun both => both.1 hsome), hwithout, hall]
  · by_cases unnamed : Unnamed p
    · rw [if_pos ⟨hsome, unnamed⟩, hwithout, stored?_of_unnamed unnamed (count_ne_zero h few hsome)]
    · rw [if_neg (fun both => unnamed both.2), hwithout, stored?_of_named h few hsome number unnamed,
        percentile?_of_ne_nil (by rwa [hsorted]), hsorted]

end Metric.TrendSummary

/-! ### Criteria -/

/-- Every trend has so few samples that its last rank is a double. At sixteen bytes a sample, more of them have
no place in an address space of 57 bits. -/
def Metric.Snapshot.FewSamples (s : Snapshot) : Prop := ∀ entry ∈ s.trends.entries, entry.2.sorted.length ≤ 2 ^ 53 + 1

instance (s : Snapshot) : Decidable s.FewSamples :=
  inferInstanceAs (Decidable (∀ entry ∈ s.trends.entries, entry.2.sorted.length ≤ 2 ^ 53 + 1))

theorem Metric.Snapshot.kindOf?_withoutSamples (s : Snapshot) (name : String) :
    s.withoutSamples.kindOf? name = s.kindOf? name := by
  have htrends : s.withoutSamples.trends.contains name = s.trends.contains name := by simp [withoutSamples]
  simp only [kindOf?, htrends]
  rfl

namespace Threshold.Spec

variable {spec : Spec} {s : Snapshot} {sink : Sink}

/-- The criterion was read from a text. -/
def Parsed (spec : Spec) : Prop := ∃ metric source description, ofText? metric source description = .ok spec

/-- The criterion is on a percentile that only the samples of its trend tell. -/
def NeedsSamples (spec : Spec) (s : Snapshot) : Prop :=
  ∃ p t, spec.expression.aggregate = .percentile p ∧ Unnamed p ∧ s.kindOf? spec.metric = some .trend
    ∧ s.trends.find? spec.metric = some t ∧ t.sorted ≠ []

theorem percent_of_ofText? {cs : List Char} {p : Binary64} (h : Aggregate.ofText? cs = .ok (.percentile p)) :
    0 ≤ p ∧ p ≤ 100 := by
  simp only [Aggregate.ofText?] at h
  split at h
  · next aggregate hfound =>
    -- A percentile has no word of its own.
    cases h
    exact absurd (List.mem_of_find?_eq_some hfound) (by simp [Aggregate.named])
  · split at h
    · cases h
    · split at h
      · cases h
      · split at h
        · next hrange =>
          cases h
          exact hrange
        · cases h

/-- The aggregate of a criterion was read from what stands before the first comparison sign. -/
theorem aggregate_of_ofText? {source : String} {expression : Expression}
    (h : Expression.ofText? source = .ok expression) :
    Aggregate.ofText? (source.toList.takeWhile fun c => !Comparison.isSign c) = .ok expression.aggregate := by
  simp only [Expression.ofText?] at h
  split at h
  · cases h
  · cases haggregate : Aggregate.ofText? (source.toList.takeWhile fun c => !Comparison.isSign c) with
    | error fault =>
        rw [haggregate] at h
        cases h
    | ok aggregate =>
        simp only [haggregate, bind, Except.bind] at h
        split at h
        · cases h
        · split at h
          · cases h
            rfl
          · cases h

theorem Parsed.percent (parsed : spec.Parsed) {p : Binary64} (h : spec.expression.aggregate = .percentile p) :
    0 ≤ p ∧ p ≤ 100 := by
  obtain ⟨metric, source, description, hspec⟩ := parsed
  unfold ofText? at hspec
  split at hspec
  · next expression hexpression =>
    cases hspec
    have haggregate := aggregate_of_ofText? hexpression
    rw [show expression.aggregate = .percentile p from h] at haggregate
    exact percent_of_ofText? haggregate
  · cases hspec

theorem Parsed.isNaN (parsed : spec.Parsed) {p : Binary64} (h : spec.expression.aggregate = .percentile p) :
    p.isNaN = false := (isNaN_of_le (parsed.percent h).1).2

theorem observed?_of_trend (hkind : s.kindOf? spec.metric = some .trend) (elapsed : Duration) :
    spec.observed? s elapsed
      = (s.trends.find? spec.metric).bind fun t => trendValue? t spec.expression.aggregate := by
  unfold observed?
  rw [hkind]
  rfl

theorem needsSamples_iff {t : TrendSummary} (hkind : s.kindOf? spec.metric = some .trend)
    (hfound : s.trends.find? spec.metric = some t) :
    spec.NeedsSamples s ↔ ∃ p, spec.expression.aggregate = .percentile p ∧ Unnamed p ∧ t.sorted ≠ [] := by
  constructor
  · rintro ⟨p, u, hp, unnamed, -, hu, hsome⟩
    obtain rfl : t = u := Option.some.inj (hfound.symm.trans hu)
    exact ⟨p, hp, unnamed, hsome⟩
  · rintro ⟨p, hp, unnamed, hsome⟩
    exact ⟨p, t, hp, unnamed, hkind, hfound, hsome⟩

/-- Every value of a trend but a percentile is a figure of its summary. -/
theorem trendValue?_withoutSamples {t : TrendSummary} {sorted : List Duration} {aggregate : Aggregate}
    (h : TrendSummary.ofSorted? sorted = some t) (few : sorted.length ≤ 2 ^ 53 + 1)
    (number : ∀ p, aggregate = .percentile p → p.isNaN = false) :
    ((∃ p, aggregate = .percentile p ∧ Unnamed p ∧ t.sorted ≠ []) →
        trendValue? t.withoutSamples aggregate = none)
      ∧ ((¬ ∃ p, aggregate = .percentile p ∧ Unnamed p ∧ t.sorted ≠ []) →
        trendValue? t.withoutSamples aggregate = trendValue? t aggregate) := by
  cases aggregate with
  | percentile p =>
      have hpercentile := TrendSummary.percentile?_withoutSamples h few (number p rfl)
      rw [← TrendSummary.sorted_of_ofSorted? h] at hpercentile
      constructor
      · rintro ⟨q, heq, unnamed, hsome⟩
        obtain rfl : p = q := Aggregate.percentile.inj heq
        exact hpercentile.trans (if_pos ⟨hsome, unnamed⟩)
      · intro hnot
        exact hpercentile.trans (if_neg fun ⟨hsome, unnamed⟩ => hnot ⟨p, rfl, unnamed, hsome⟩)
  | _ =>
      refine ⟨fun ⟨_, heq, _⟩ => ?_, fun _ => rfl⟩
      cases heq

/-- **A stored snapshot says the same of a criterion, or nothing** if it is on a percentile that only samples
tell. -/
theorem observed?_withoutSamples (taken : sink.snapshot? = some s) (few : s.FewSamples) (parsed : spec.Parsed)
    (elapsed : Duration) :
    (spec.NeedsSamples s → spec.observed? s.withoutSamples elapsed = none)
      ∧ (¬ spec.NeedsSamples s → spec.observed? s.withoutSamples elapsed = spec.observed? s elapsed) := by
  have hkinds := s.kindOf?_withoutSamples spec.metric
  by_cases hkind : s.kindOf? spec.metric = some .trend
  swap
  · -- Only trends have samples.
    refine ⟨fun ⟨_, _, _, _, htrend, _⟩ => absurd htrend hkind, fun _ => ?_⟩
    unfold observed?
    rw [hkinds]
    split
    · contradiction
    · rfl
    · rfl
    · rfl
  have hfind : s.withoutSamples.trends.find? spec.metric
      = (s.trends.find? spec.metric).map TrendSummary.withoutSamples := Table.find?_map ..
  rw [observed?_of_trend hkind, observed?_of_trend (hkinds.trans hkind), hfind]
  cases hfound : s.trends.find? spec.metric with
  | none => exact ⟨fun _ => rfl, fun _ => rfl⟩
  | some t =>
      have hlength := few _ (Table.mem_entries_iff.mpr hfound)
      have htaken := hfound
      rw [Sink.find?_trends_of_snapshot? taken] at htaken
      obtain ⟨trend, -, hsummary⟩ := Option.bind_eq_some_iff.mp htaken
      rw [TrendSummary.sorted_of_ofSorted? hsummary] at hlength
      rw [needsSamples_iff hkind hfound, Option.map_some, Option.bind_some, Option.bind_some]
      exact trendValue?_withoutSamples hsummary hlength fun p => parsed.isNaN

theorem judge_withoutSamples (taken : sink.snapshot? = some s) (few : s.FewSamples) (parsed : spec.Parsed)
    (elapsed : Duration) (h : (spec.judge s.withoutSamples elapsed).passed = true) :
    spec.judge s.withoutSamples elapsed = spec.judge s elapsed := by
  obtain ⟨hneeds, hsame⟩ := observed?_withoutSamples taken few parsed elapsed
  have hnot : ¬ spec.NeedsSamples s := by
    intro needs
    have hnone : (spec.judge s.withoutSamples elapsed).passed = false := by
      rw [judge, hneeds needs]
      rfl
    exact Bool.false_ne_true (hnone.symm.trans h)
  rw [judge, hsame hnot, judge]

end Threshold.Spec

namespace Threshold

variable {s : Snapshot} {sink : Sink}

theorem passed_of_withoutSamples (taken : sink.snapshot? = some s) (few : s.FewSamples) (elapsed : Duration)
    {specs : List Spec} (parsed : ∀ spec ∈ specs, spec.Parsed)
    (h : (evaluate specs s.withoutSamples elapsed).passed = true) : (evaluate specs s elapsed).passed = true := by
  simp only [evaluate, List.all_map, List.all_eq_true, Function.comp_apply] at h ⊢
  intro spec mem
  rw [← spec.judge_withoutSamples taken few (parsed spec mem) elapsed (h spec mem)]
  exact h spec mem

theorem evaluate_withoutSamples (taken : sink.snapshot? = some s) (few : s.FewSamples) (elapsed : Duration)
    {specs : List Spec} (parsed : ∀ spec ∈ specs, spec.Parsed) (without : ∀ spec ∈ specs, ¬ spec.NeedsSamples s) :
    evaluate specs s.withoutSamples elapsed = evaluate specs s elapsed := by
  have hresults : specs.map (·.judge s.withoutSamples elapsed) = specs.map (·.judge s elapsed) := by
    refine List.map_congr_left fun spec mem => ?_
    have hobserved := (spec.observed?_withoutSamples taken few (parsed spec mem) elapsed).2 (without spec mem)
    rw [Spec.judge, hobserved, Spec.judge]
  simp only [evaluate, hresults]

/-- **Criteria can be judged again on a stored snapshot.** What is observed there is what was observed, or
nothing, and nothing only for a percentile strictly between the ends that is none of the four and whose trend has
samples. So a list of criteria that passes there passed, and without such percentiles the verdict is the same. No trend may
have more than `2 ^ 53 + 1` samples (`FewSamples`), which no memory holds: beyond that the rank of the last one need not
be a double. -/
theorem stored_snapshot_sound (taken : sink.snapshot? = some s) (few : s.FewSamples)
    (exact : ∀ x ∈ s.doubles, Json.Exact x) (spacing : Json.Spacing) :
    ∃ stored, (Json.ofText? (s.toJson.textWith spacing)).bind Snapshot.ofJson? = some stored
      ∧ (∀ spec : Spec, spec.Parsed → ∀ elapsed, spec.observed? stored elapsed = spec.observed? s elapsed
          ∨ spec.observed? stored elapsed = none ∧ spec.NeedsSamples s)
      ∧ ∀ specs : List Spec, (∀ spec ∈ specs, spec.Parsed) → ∀ elapsed,
          ((evaluate specs stored elapsed).passed = true → (evaluate specs s elapsed).passed = true)
          ∧ ((∀ spec ∈ specs, ¬ spec.NeedsSamples s) →
              evaluate specs stored elapsed = evaluate specs s elapsed) := by
  refine ⟨s.withoutSamples, Snapshot.bind_ofText? (Sink.isFinite_of_snapshot? taken) exact spacing,
    fun spec parsed elapsed => ?_, fun specs parsed elapsed =>
      ⟨passed_of_withoutSamples taken few elapsed parsed, evaluate_withoutSamples taken few elapsed parsed⟩⟩
  obtain ⟨hneeds, hsame⟩ := spec.observed?_withoutSamples taken few parsed elapsed
  by_cases needs : spec.NeedsSamples s
  · exact .inr ⟨hneeds needs, needs⟩
  · exact .inl (hsame needs)

/-- That all but five of a hundred requests take less than 300 milliseconds. -/
def highLatency : Spec := ⟨"latency", "p(95)<300", ⟨.percentile 95, .less, 300⟩, none⟩

/-- The criterion is judged as it was before. -/
theorem threeLatencies_rejudged : ∃ s, threeLatencies.snapshot? = some s ∧ s.FewSamples
    ∧ (∀ x ∈ s.doubles, Json.Exact x) ∧ highLatency.Parsed ∧ ¬ highLatency.NeedsSamples s
    ∧ ∃ stored, (Json.ofText? (s.toJson.textWith ⟨false, 0⟩)).bind Snapshot.ofJson? = some stored
      ∧ evaluate [highLatency] stored .zero = evaluate [highLatency] s .zero := by
  have hall : threeLatencies.snapshot?.any (fun s =>
      decide s.FewSamples && s.doubles.all fun x => decide (Json.Exact x)) = true := by
    rw [Sink.snapshot?_eq, sorted_threeLatencies]
    decide +kernel
  obtain ⟨s, taken, hs⟩ := (Option.any_eq_true _ _).mp hall
  obtain ⟨hfew, hexact⟩ := (Bool.and_eq_true _ _).mp hs
  have few : s.FewSamples := of_decide_eq_true hfew
  have exact : ∀ x ∈ s.doubles, Json.Exact x := fun x mem => of_decide_eq_true (List.all_eq_true.mp hexact x mem)
  have parsed : highLatency.Parsed := ⟨"latency", "p(95)<300", none, by decide +kernel⟩
  have without : ¬ highLatency.NeedsSamples s := by
    rintro ⟨p, t, hp, unnamed, -⟩
    cases hp
    exact absurd unnamed (by decide +kernel)
  obtain ⟨stored, hstored, -, hverdicts⟩ := stored_snapshot_sound taken few exact ⟨false, 0⟩
  refine ⟨s, taken, few, exact, parsed, without, stored, hstored, ?_⟩
  exact (hverdicts [highLatency] (by simpa using parsed) .zero).2 (by simpa using without)

end Threshold

end LoadTest
