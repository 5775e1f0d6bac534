import LoadTest.Plan
import LoadTest.Proofs.Outcome.Growth

/-!
# LoadTest.Proofs.Threshold.Lasting

Failures that last. **A count that has passed a bound from above stays beyond it,** so a criterion of that
kind that fails during a run fails at its end, and a run that it ends early would have failed. Totals are
checked during a run against no other bounds. The samples of a trend are checked against bounds from below
too, and there a failure need not last: at the beginning of a run there are no samples.
-/

namespace LoadTest

open LoadTest.Metric Threshold Outcome

/-! ### Bounds from above -/

/-- Whether a comparison that holds for a value holds for every smaller one. -/
def Threshold.Comparison.isUpper : Comparison → Bool
  | .less | .atMost => true
  | .greater | .atLeast | .equal => false

theorem Threshold.Comparison.holds_of_le {comparison : Comparison} {x y bound : Binary64}
    (upper : comparison.isUpper = true) (hle : x.le y = true) (h : comparison.holds y bound = true) :
    comparison.holds x bound = true := by
  cases comparison with
  | less => exact Binary64.lt_of_le_of_lt hle h
  | atMost => exact Binary64.le_trans hle h
  | _ => exact absurd upper Bool.noConfusion

namespace Plan

variable {plan : Plan} {spec : Spec}

/-- What is checked during a run is a series of the scenario and can be judged before its end. -/
theorem kindOf?_of_abortThresholds (kept : spec ∈ plan.abortThresholds) :
    ∃ kind, plan.scenario.kindOf? spec.metric = some kind ∧ spec.needsFullRun kind = false := by
  obtain ⟨-, hchecked⟩ := List.mem_filter.mp kept
  cases hkind : plan.scenario.kindOf? spec.metric with
  | none => simp [hkind] at hchecked
  | some kind => exact ⟨kind, rfl, by simpa [hkind] using hchecked⟩

/-- Totals are checked during a run against bounds from above only. -/
theorem isUpper_of_counter (kept : spec ∈ plan.abortThresholds)
    (counter : plan.scenario.kindOf? spec.metric = some .counter) :
    spec.expression.comparison.isUpper = true := by
  obtain ⟨kind, hkind, hfull⟩ := kindOf?_of_abortThresholds kept
  obtain rfl : kind = .counter := Option.some.inj (hkind.symm.trans counter)
  unfold Spec.needsFullRun at hfull
  cases hcomparison : spec.expression.comparison <;> simp_all [Comparison.isUpper]

theorem failed_of_rate {snapshot : Snapshot} (hkind : snapshot.kindOf? spec.metric = some .rate)
    (count : spec.expression.aggregate = .count) (elapsed : Duration) :
    (spec.judge snapshot elapsed).passed = false := by
  have hnone : spec.observed? snapshot elapsed = none := by
    rw [Spec.observed?, hkind]
    simp [count]
  rw [Spec.judge, hnone]
  rfl

/-- **A failure over a count lasts.** A criterion on a count that is checked during a run, and fails on what
had been recorded by then, fails on all that is recorded later too. Only a trend must not be bounded from
below, and the exchanges must be so few that their number has 64 bits. -/
theorem failed_count_lasts {shards : Nat} {earlier later : Exchanges} {before after : Snapshot}
    (few : (earlier ++ later).length < UInt64.size)
    (takenBefore : (recordAll plan.scenario earlier (plan.scenario.sink shards)).snapshot? = some before)
    (takenAfter : (recordAll plan.scenario (earlier ++ later) (plan.scenario.sink shards)).snapshot?
      = some after)
    (kept : spec ∈ plan.abortThresholds) (count : spec.expression.aggregate = .count)
    (bounded : plan.scenario.kindOf? spec.metric = some .trend →
      spec.expression.comparison.isUpper = true)
    {clock : Duration} (failed : (spec.judge before clock).passed = false) (elapsed : Duration) :
    (spec.judge after elapsed).passed = false := by
  obtain ⟨kind, hkind, -⟩ := kindOf?_of_abortThresholds kept
  by_cases summed : kind = .rate
  -- A rate has no count, so a criterion on one fails whatever is recorded.
  · subst summed
    refine failed_of_rate ?_ count elapsed
    rw [Sink.kindOf?_of_snapshot? takenAfter, kindOf?_recordAll, hkind]
  have upper : spec.expression.comparison.isUpper = true := by
    cases kind with
    | counter => exact isUpper_of_counter kept hkind
    | trend => exact bounded hkind
    | rate => exact absurd rfl summed
  -- Both counts are the words of what was added up, and there are too few exchanges for them to wrap.
  have hgrowth := growth_append plan.scenario spec.metric earlier later kind
  have hfew := growth_le_length (mem_catalog_of_kindOf? hkind) (earlier ++ later)
  have hbefore : (UInt64.ofNat (growth plan.scenario spec.metric earlier kind)).toNat
      = growth plan.scenario spec.metric earlier kind := UInt64.toNat_ofNat_of_lt (by omega)
  have hafter : (UInt64.ofNat (growth plan.scenario spec.metric (earlier ++ later) kind)).toNat
      = growth plan.scenario spec.metric (earlier ++ later) kind := UInt64.toNat_ofNat_of_lt (by omega)
  have hle : (Binary64.ofNat (growth plan.scenario spec.metric earlier kind)).le
      (Binary64.ofNat (growth plan.scenario spec.metric (earlier ++ later) kind)) = true :=
    Binary64.ofNat_le_ofNat (by omega)
  rw [Spec.judge, observed?_count takenBefore count hkind summed, hbefore] at failed
  rw [Spec.judge, observed?_count takenAfter count hkind summed, hafter]
  refine Bool.eq_false_iff.mpr fun hpassed => ?_
  exact Bool.eq_false_iff.mp failed (Comparison.holds_of_le upper hle hpassed)

/-! ### Bounds on samples -/

/-- A criterion on the number of latencies. -/
def sampleCount (comparison : Comparison) (bound : Nat) : Spec :=
  ⟨"http_req_duration", "", ⟨.count, comparison, .ofNat bound⟩, none⟩

/-- A run that such a criterion ends as soon as it fails. -/
def counting (spec : Spec) : Plan :=
  { ofSchedule "http://t" .couponIssue (.shared 1 {}) ⟨[⟨.ofSeconds 1, 1⟩], by decide, by decide⟩ with
    thresholds := [spec]
    abortOnFail := true }

/-- The coupon had been issued before, as the target says after five milliseconds. -/
def duplicate : Exchange × Parameters := (.ok ⟨409, .ofMillis 5, []⟩, ⟨some 2, 1⟩)

/-- Nobody can connect. -/
def refused : Exchange × Parameters := (.error (.connection "refused"), ⟨some 3, 1⟩)

/-- What a run has recorded after some exchanges. -/
def snapshotOf? (spec : Spec) (exchanges : Exchanges) : Option Snapshot :=
  (recordAll (counting spec).scenario exchanges ((counting spec).scenario.sink 16)).snapshot?

/-- Where no latency is allowed, the first is one too many, and remains so. -/
theorem first_sample_fails : ∃ before after,
    snapshotOf? (sampleCount .less 1) [duplicate] = some before
      ∧ snapshotOf? (sampleCount .less 1) [duplicate, refused] = some after
      ∧ ((sampleCount .less 1).judge before .zero).passed = false
      ∧ ∀ elapsed, ((sampleCount .less 1).judge after elapsed).passed = false := by
  obtain ⟨hbefore, hafter, hfailed⟩ : (snapshotOf? (sampleCount .less 1) [duplicate]).isSome = true
      ∧ (snapshotOf? (sampleCount .less 1) [duplicate, refused]).isSome = true
      ∧ ∀ before ∈ snapshotOf? (sampleCount .less 1) [duplicate],
        ((sampleCount .less 1).judge before .zero).passed = false := by decide +kernel
  obtain ⟨before, hbefore⟩ := Option.isSome_iff_exists.mp hbefore
  obtain ⟨after, hafter⟩ := Option.isSome_iff_exists.mp hafter
  refine ⟨before, after, hbefore, hafter, hfailed before hbefore, ?_⟩
  exact @failed_count_lasts (counting (sampleCount .less 1)) _ 16 [duplicate] [refused] before after
    (by decide) hbefore hafter (by decide +kernel) rfl (fun _ => rfl) .zero (hfailed before hbefore)

/-- **A failure over too few samples need not last.** That there is a latency at all is checked during a
run; it fails as long as nothing has been recorded, and passes from the first answer on. -/
theorem first_sample_recovers : ∃ before after,
    (counting (sampleCount .atLeast 1)).checkThresholds = .ok ()
      ∧ sampleCount .atLeast 1 ∈ (counting (sampleCount .atLeast 1)).abortThresholds
      ∧ (counting (sampleCount .atLeast 1)).scenario.kindOf? (sampleCount .atLeast 1).metric = some .trend
      ∧ snapshotOf? (sampleCount .atLeast 1) [] = some before
      ∧ snapshotOf? (sampleCount .atLeast 1) [duplicate] = some after
      ∧ ((sampleCount .atLeast 1).judge before .zero).passed = false
      ∧ ((sampleCount .atLeast 1).judge after .zero).passed = true := by
  obtain ⟨hbefore, hafter, hfailed, hpassed⟩ :
      (snapshotOf? (sampleCount .atLeast 1) []).isSome = true
      ∧ (snapshotOf? (sampleCount .atLeast 1) [duplicate]).isSome = true
      ∧ (∀ before ∈ snapshotOf? (sampleCount .atLeast 1) [],
        ((sampleCount .atLeast 1).judge before .zero).passed = false)
      ∧ ∀ after ∈ snapshotOf? (sampleCount .atLeast 1) [duplicate],
        ((sampleCount .atLeast 1).judge after .zero).passed = true := by decide +kernel
  obtain ⟨before, hbefore⟩ := Option.isSome_iff_exists.mp hbefore
  obtain ⟨after, hafter⟩ := Option.isSome_iff_exists.mp hafter
  exact ⟨before, after, rfl, by decide +kernel, rfl, hbefore, hafter, hfailed before hbefore,
    hpassed after hafter⟩

end Plan

end LoadTest
