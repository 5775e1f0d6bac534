import LoadTest.Metric.Sink
import LoadTest.Proofs.Table
import Mathlib.Algebra.GroupWithZero.Nat
import Mathlib.Algebra.Order.BigOperators.Group.List
import Mathlib.Algebra.Order.Group.Nat
import Mathlib.Data.List.Flatten

/-!
# LoadTest.Proofs.Metric.Addition

What is recorded, as data. An `Addition` goes to one series, and **what a series holds after any
additions hangs only on those that name it:** a counter has grown by what they counted, a rate by how
many they are and how many of them held, and a trend has their samples.
-/

namespace LoadTest.Metric

/-- Something recorded in one series. -/
inductive Addition where
  | count (name : String) (n : UInt64)
  | observe (name : String) (hit : Bool)
  | sample (name : String) (duration : Duration)

namespace Addition

/-- What an addition counts for a counter. -/
def counted (name : String) : Addition → Nat
  | .count other n => if name = other then n.toNat else 0
  | _ => 0

/-- Whether an addition is an observation for a rate, as a number. -/
def observed (name : String) : Addition → Nat
  | .observe other _ => if name = other then 1 else 0
  | _ => 0

/-- Whether an addition is an observation for a rate that held, as a number. -/
def hits (name : String) : Addition → Nat
  | .observe other hit => if name = other ∧ hit then 1 else 0
  | _ => 0

/-- The sample an addition has for a trend. -/
def samples (name : String) : Addition → List Duration
  | .sample other duration => if name = other then [duration] else []
  | _ => []

section Readings

variable (name other : String) (n : UInt64) (hit : Bool) (duration : Duration)

@[simp] theorem counted_count : (count other n).counted name = if name = other then n.toNat else 0 := rfl
@[simp] theorem counted_observe : (observe other hit).counted name = 0 := rfl
@[simp] theorem counted_sample : (sample other duration).counted name = 0 := rfl

@[simp] theorem observed_count : (count other n).observed name = 0 := rfl
@[simp] theorem observed_observe : (observe other hit).observed name = if name = other then 1 else 0 := rfl
@[simp] theorem observed_sample : (sample other duration).observed name = 0 := rfl

@[simp] theorem hits_count : (count other n).hits name = 0 := rfl
@[simp] theorem hits_observe : (observe other hit).hits name = if name = other ∧ hit then 1 else 0 := rfl
@[simp] theorem hits_sample : (sample other duration).hits name = 0 := rfl

@[simp] theorem samples_count : (count other n).samples name = [] := rfl
@[simp] theorem samples_observe : (observe other hit).samples name = [] := rfl
@[simp] theorem samples_sample :
    (sample other duration).samples name = if name = other then [duration] else [] := rfl

end Readings

/-- A rate has no hit that is no observation. -/
theorem hits_le_observed (name : String) (addition : Addition) :
    addition.hits name ≤ addition.observed name := by
  cases addition with
  | observe other hit =>
      by_cases h : name = other
      · cases hit <;> simp [h]
      · simp [h]
  | _ => simp

theorem sum_hits_le (name : String) (additions : List Addition) :
    (additions.map (·.hits name)).sum ≤ (additions.map (·.observed name)).sum :=
  List.sum_le_sum fun addition _ => addition.hits_le_observed name

end Addition

/-! ### The series of a sink -/

namespace Sink

/-- Records one addition. -/
def add (sink : Sink) : Addition → Sink
  | .count name n => sink.count name n
  | .observe name hit => sink.observe name hit
  | .sample name duration => sink.sample name duration

/-- Records additions one after the other. -/
def addAll (sink : Sink) (additions : List Addition) : Sink := additions.foldl add sink

@[simp] theorem addAll_nil (sink : Sink) : sink.addAll [] = sink := rfl

@[simp] theorem addAll_cons (sink : Sink) (addition : Addition) (additions : List Addition) :
    sink.addAll (addition :: additions) = (sink.add addition).addAll additions := rfl

theorem addAll_append (sink : Sink) (first second : List Addition) :
    sink.addAll (first ++ second) = (sink.addAll first).addAll second :=
  List.foldl_append

/-- A counter after one addition. -/
theorem find?_counters_add (sink : Sink) (addition : Addition) (name : String) :
    (sink.add addition).counters.find? name
      = (sink.counters.find? name).map fun c => ⟨c.value + .ofNat (addition.counted name)⟩ := by
  cases addition with
  | count other n =>
      by_cases h : name = other
      · simp [add, count, h, Counter.add]
      · simp [add, count, Table.find?_modify_of_ne _ _ h, h]
  | observe other hit => simp [add, observe]
  | sample other duration => simp [add, sample]

/-- A rate after one addition. -/
theorem find?_rates_add (sink : Sink) (addition : Addition) (name : String) :
    (sink.add addition).rates.find? name
      = (sink.rates.find? name).map fun r =>
          ⟨r.hits + .ofNat (addition.hits name), r.observed + .ofNat (addition.observed name)⟩ := by
  cases addition with
  | count other n => simp [add, count]
  | observe other hit =>
      by_cases h : name = other
      · cases hit <;> simp [add, observe, h, Rate.add]
      · simp [add, observe, Table.find?_modify_of_ne _ _ h, h]
  | sample other duration => simp [add, sample]

/-- A trend after one addition. -/
theorem find?_trends_add (sink : Sink) (addition : Addition) (name : String) :
    (sink.add addition).trends.find? name
      = (sink.trends.find? name).map fun t => (addition.samples name).foldl Trend.add t := by
  cases addition with
  | count other n => simp [add, count]
  | observe other hit => simp [add, observe]
  | sample other duration =>
      by_cases h : name = other
      · simp [add, sample, h]
      · simp [add, sample, Table.find?_modify_of_ne _ _ h, h]

/-- A counter has grown by all that was counted for it. -/
theorem find?_counters_addAll (sink : Sink) (additions : List Addition) (name : String) :
    (sink.addAll additions).counters.find? name
      = (sink.counters.find? name).map fun c =>
          ⟨c.value + .ofNat (additions.map (·.counted name)).sum⟩ := by
  induction additions generalizing sink with
  | nil => simp
  | cons addition rest ih =>
      rw [addAll_cons, ih, find?_counters_add, Option.map_map]
      congr 1
      funext c
      simp [UInt64.add_assoc, UInt64.ofNat_add]

/-- A rate has grown by every observation for it. -/
theorem find?_rates_addAll (sink : Sink) (additions : List Addition) (name : String) :
    (sink.addAll additions).rates.find? name
      = (sink.rates.find? name).map fun r =>
          ⟨r.hits + .ofNat (additions.map (·.hits name)).sum,
            r.observed + .ofNat (additions.map (·.observed name)).sum⟩ := by
  induction additions generalizing sink with
  | nil => simp
  | cons addition rest ih =>
      rw [addAll_cons, ih, find?_rates_add, Option.map_map]
      congr 1
      funext r
      simp [UInt64.add_assoc, UInt64.ofNat_add]

/-- A trend was given every sample for it, in order. -/
theorem find?_trends_addAll (sink : Sink) (additions : List Addition) (name : String) :
    (sink.addAll additions).trends.find? name
      = (sink.trends.find? name).map fun t =>
          (additions.flatMap (·.samples name)).foldl Trend.add t := by
  induction additions generalizing sink with
  | nil => simp
  | cons addition rest ih =>
      rw [addAll_cons, ih, find?_trends_add, Option.map_map]
      congr 1
      funext t
      simp [List.foldl_append]

/-- Additions change what the series hold, not which there are. -/
theorem kindOf?_addAll (sink : Sink) (additions : List Addition) (name : String) :
    (sink.addAll additions).kindOf? name = sink.kindOf? name := by
  have hcounters : (sink.addAll additions).counters.contains name = sink.counters.contains name := by
    simp [find?_counters_addAll]
  have hrates : (sink.addAll additions).rates.contains name = sink.rates.contains name := by
    simp [find?_rates_addAll]
  have htrends : (sink.addAll additions).trends.contains name = sink.trends.contains name := by
    simp [find?_trends_addAll]
  rw [kindOf?, kindOf?, hcounters, hrates, htrends]

/-! ### Declared series -/

/-- One more declaration is found under its own name and kind, empty, and hides nothing else. -/
theorem find?_counters_declare (shards : Nat) (sink : Sink) (series : String × Kind) (name : String) :
    (declare shards sink series).counters.find? name
      = if series = (name, .counter) then some .zero else sink.counters.find? name := by
  obtain ⟨other, kind⟩ := series
  cases kind <;> simp [declare, Table.find?_insert, eq_comm]

theorem find?_rates_declare (shards : Nat) (sink : Sink) (series : String × Kind) (name : String) :
    (declare shards sink series).rates.find? name
      = if series = (name, .rate) then some .zero else sink.rates.find? name := by
  obtain ⟨other, kind⟩ := series
  cases kind <;> simp [declare, Table.find?_insert, eq_comm]

theorem find?_trends_declare (shards : Nat) (sink : Sink) (series : String × Kind) (name : String) :
    (declare shards sink series).trends.find? name
      = if series = (name, .trend) then some (.ofShards shards) else sink.trends.find? name := by
  obtain ⟨other, kind⟩ := series
  cases kind <;> simp [declare, Table.find?_insert, eq_comm]

/-- What a list of declarations makes of one series, whatever the kind: `found` reads the series. -/
theorem foldl_declare {α : Type} {shards : Nat} {name : String} {kind : Kind} {start : α}
    (found : Sink → Option α)
    (step : ∀ sink series, found (declare shards sink series)
      = if series = (name, kind) then some start else found sink)
    (series : List (String × Kind)) (sink : Sink) :
    found (series.foldl (declare shards) sink)
      = if (name, kind) ∈ series then some start else found sink := by
  induction series generalizing sink with
  | nil => simp
  | cons head rest ih =>
      rw [List.foldl_cons, ih, step]
      -- A name declared twice is found as declared last, and both declarations are the same.
      by_cases hrest : (name, kind) ∈ rest
      · simp [hrest]
      · by_cases hhead : head = (name, kind)
        · simp [hhead]
        · simp [hrest, hhead, Ne.symm hhead]

/-- The counters of a sink are those declared, and empty. -/
theorem find?_counters_ofSeries (series : List (String × Kind)) (shards : Nat) (name : String) :
    (ofSeries series shards).counters.find? name
      = if (name, .counter) ∈ series then some .zero else none :=
  foldl_declare (·.counters.find? name) (fun sink s => find?_counters_declare shards sink s name)
    series _

/-- The rates of a sink are those declared, and empty. -/
theorem find?_rates_ofSeries (series : List (String × Kind)) (shards : Nat) (name : String) :
    (ofSeries series shards).rates.find? name
      = if (name, .rate) ∈ series then some .zero else none :=
  foldl_declare (·.rates.find? name) (fun sink s => find?_rates_declare shards sink s name) series _

/-- The trends of a sink are those declared, and empty. -/
theorem find?_trends_ofSeries (series : List (String × Kind)) (shards : Nat) (name : String) :
    (ofSeries series shards).trends.find? name
      = if (name, .trend) ∈ series then some (.ofShards shards) else none :=
  foldl_declare (·.trends.find? name) (fun sink s => find?_trends_declare shards sink s name) series _

end Sink

/-! ### The samples of a trend -/

namespace Trend

theorem flatten_modify_cons {α : Type} (a : α) {lists : List (List α)} {i : Nat}
    (h : i < lists.length) : (lists.modify i (a :: ·)).flatten.Perm (a :: lists.flatten) := by
  induction lists generalizing i with
  | nil => simp at h
  | cons list rest ih =>
      cases i with
      | zero => simp
      | succ i =>
          have hrest := ih (i := i) (by simpa using h)
          calc (list ++ (rest.modify i (a :: ·)).flatten)
              _ |>.Perm (list ++ a :: rest.flatten) := hrest.append_left list
              _ |>.Perm (a :: (list ++ rest.flatten)) := List.perm_middle

@[simp] theorem length_shards_add (t : Trend) (d : Duration) :
    (t.add d).shards.length = t.shards.length := by
  simp [add]

/-- A trend with a shard keeps each sample it is given. -/
theorem samples_foldl_add {t : Trend} (h : 0 < t.shards.length) (durations : List Duration) :
    (durations.foldl add t).samples.Perm (durations ++ t.samples) := by
  induction durations generalizing t with
  | nil => exact .refl _
  | cons d rest ih =>
      have hd : (t.add d).samples.Perm (d :: t.samples) :=
        flatten_modify_cons d (Nat.mod_lt _ h)
      exact (ih (by simpa using h)).trans ((hd.append_left rest).trans List.perm_middle)

theorem length_shards_ofShards (n : Nat) : 0 < (ofShards n).shards.length := by
  simp [ofShards]

@[simp] theorem samples_ofShards (n : Nat) : (ofShards n).samples = [] := by
  simp [ofShards, samples]

/-- A trend that was empty holds exactly the samples it was given. -/
theorem samples_foldl_add_ofShards (n : Nat) (durations : List Duration) :
    (durations.foldl add (ofShards n)).samples.Perm durations := by
  simpa using samples_foldl_add (length_shards_ofShards n) durations

end Trend

end LoadTest.Metric
