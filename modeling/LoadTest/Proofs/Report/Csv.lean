import LoadTest.Proofs.Config.Resolve
import LoadTest.Proofs.Metric.Totals
import LoadTest.Proofs.Report.CriterionName
import LoadTest.Proofs.Simulation.EarlyEnd

/-!
# LoadTest.Proofs.Report.Csv

The table of a report. **It has one row for each figure, criterion and outcome of the run, and rows of one name are
the same row;** no field has a comma, and a line break only stands where the text of a criterion has one inside
(`table_of_report`). Without such a criterion a reader that splits at line breaks and commas finds the rows again.
-/

namespace LoadTest

open LoadTest.Metric Threshold

namespace Report

/-! ### Fields -/

/-- The characters that end a line. -/
def lineBreaks : List Char := ['\n', '\x0b', '\x0c', '\r', '\u0085', '\u2028', '\u2029']

/-- The characters that end a field or a line. -/
def separators : List Char := ',' :: lineBreaks

/-- The characters of names and numbers. -/
def fieldLetters : List Char := nameLetters ++ Numeral.alphabet

theorem not_mem_separators {c : Char} (h : c ∈ fieldLetters) : c ∉ separators := by
  have hall : ∀ c ∈ fieldLetters, c ∉ separators := by decide
  exact hall c h

theorem toString_nat_subset (n : Nat) : (toString n).toList ⊆ fieldLetters := by
  intro c mem
  rw [Nat.toString_eq_ofList_toDigits, String.toList_ofList] at mem
  have hdigit : c.isDigit = true := Nat.isDigit_of_mem_toDigits (by decide) (by decide) mem
  rw [← Numeral.isDigit_eq] at hdigit
  exact List.mem_append_right _ (Numeral.mem_alphabet_of_isDigit hdigit)

theorem toString_word_subset (n : UInt64) : (toString n).toList ⊆ fieldLetters :=
  toString_nat_subset n.toNat

theorem toString_int_subset (n : Int) : (toString n).toList ⊆ fieldLetters := by
  cases n with
  | ofNat n => exact toString_nat_subset n
  | negSucc n =>
      have htext : toString (Int.negSucc n) = "-" ++ toString (n + 1) := rfl
      rw [htext, String.toList_append]
      exact List.append_subset.mpr ⟨by decide, toString_nat_subset (n + 1)⟩

open Binary64 in
theorem fixedText_subset (places : Nat) (x : Binary64) : (x.fixedText places).toList ⊆ fieldLetters := by
  have hpointed (n : Nat) : (pointed places n).toList ⊆ fieldLetters := by
    unfold pointed
    split
    · exact toString_nat_subset n
    · simp only [String.toList_append, String.toList_ofList]
      refine List.append_subset.mpr ⟨List.append_subset.mpr ⟨toString_nat_subset _, by decide⟩,
        List.append_subset.mpr ⟨?_, ?_⟩⟩
      · intro c mem
        obtain rfl : c = '0' := List.eq_of_mem_replicate mem
        decide
      · have hdigits := toString_nat_subset (n % Nat.pow 10 places)
        rwa [Nat.toString_eq_ofList_toDigits, String.toList_ofList] at hdigits
  cases x with
  | nan => exact (by decide : "NaN".toList ⊆ fieldLetters)
  | infinite negative =>
      rw [fixedText]
      cases negative <;> decide
  | finite negative units h =>
      rw [fixedText, String.toList_append]
      refine List.append_subset.mpr ⟨?_, hpointed _⟩
      cases negative <;> decide

/-! ### Lines -/

/-- Texts that end with a mark are found again by splitting there. -/
theorem splitOn_flatMap {mark : Char} {texts : List (List Char)} (h : ∀ text ∈ texts, mark ∉ text) :
    (texts.flatMap fun text => text ++ [mark]).splitOn mark = texts ++ [[]] := by
  induction texts with
  | nil => rfl
  | cons text texts ih =>
      obtain ⟨htext, htexts⟩ := List.forall_mem_cons.mp h
      rw [List.flatMap_cons, List.append_assoc, List.singleton_append, List.splitOn_append_cons_self,
        List.splitOn_eq_singleton htext, ih htexts]
      rfl

/-- The fields of a row. -/
def Row.fields (row : Row) : List String := [row.name, row.kind, row.value]

/-- The heading of the table. -/
def heading : Row := ⟨"metric_name", "metric_type", "value"⟩

/-- What a reader finds in a text that splits it at line breaks and commas. -/
def readCsv (text : String) : List (List String) :=
  (text.toList.splitOn '\n').map fun line => (line.splitOn ',').map String.ofList

/-- The line of a row without its end. -/
def Row.body (row : Row) : List Char := [','].intercalate (row.fields.map String.toList)

theorem Row.toList_line (row : Row) : row.line.toList = row.body ++ ['\n'] := by
  simp [Row.line, Row.body, Row.fields, List.intercalate]

theorem toList_csv (r : Report) :
    r.csv.toList = ((heading :: r.rows).map Row.body).flatMap fun line => line ++ ['\n'] := by
  have hheading : "metric_name,metric_type,value\n" = heading.line := by decide +kernel
  have hcsv : r.csv = String.join ((heading :: r.rows).map Row.line) := by
    rw [List.map_cons, String.join_cons]
    exact congrArg (· ++ String.join (r.rows.map Row.line)) hheading
  rw [hcsv, String.toList_join, List.flatMap_map, List.flatMap_map]
  exact congrArg (fun f => List.flatMap f _) (funext Row.toList_line)

/-- A line is split into the fields of its row. -/
theorem Row.splitOn_body {row : Row} (commas : ∀ field ∈ row.fields, ',' ∉ field.toList) :
    (row.body.splitOn ',').map String.ofList = row.fields := by
  have hfields : ∀ field ∈ row.fields.map String.toList, ',' ∉ field := by
    simpa using commas
  rw [Row.body, List.splitOn_intercalate _ hfields (by simp [Row.fields]), List.map_map]
  simp [Function.comp_def]

theorem Row.newline_not_mem_body {row : Row} (newlines : ∀ field ∈ row.fields, '\n' ∉ field.toList) :
    '\n' ∉ row.body := by
  have hcomma : '\n' ≠ ',' := by decide
  simp only [Row.fields, List.forall_mem_cons] at newlines
  simp [Row.body, Row.fields, List.intercalate, newlines, hcomma]

/-- A table is read back if no field has a comma or a newline. -/
theorem readCsv_csv {r : Report} (commas : ∀ row ∈ r.rows, ∀ field ∈ row.fields, ',' ∉ field.toList)
    (newlines : ∀ row ∈ r.rows, ∀ field ∈ row.fields, '\n' ∉ field.toList) :
    readCsv r.csv = heading.fields :: r.rows.map Row.fields ++ [[""]] := by
  have hlines : ∀ line ∈ (heading :: r.rows).map Row.body, '\n' ∉ line := by
    refine List.forall_mem_map.mpr (List.forall_mem_cons.mpr ⟨Row.newline_not_mem_body (by decide), ?_⟩)
    intro row mem
    exact Row.newline_not_mem_body (newlines row mem)
  have hfields : ∀ row ∈ heading :: r.rows, (row.body.splitOn ',').map String.ofList = row.fields := by
    refine List.forall_mem_cons.mpr ⟨Row.splitOn_body (by decide), ?_⟩
    intro row mem
    exact Row.splitOn_body (commas row mem)
  rw [readCsv, toList_csv, splitOn_flatMap hlines, List.map_append, List.map_map]
  exact congrArg (· ++ [[""]]) (List.map_congr_left hfields)

/-! ### Rows -/

/-- The names of the series of a kind. -/
def seriesOf (scenario : Scenario) (kind : Kind) : List String :=
  (scenario.catalog.filter fun series => series.2 = kind).map (·.1)

theorem mem_seriesOf {scenario : Scenario} {kind : Kind} {name : String} :
    name ∈ seriesOf scenario kind ↔ (name, kind) ∈ scenario.catalog := by
  simp [seriesOf]

/-- What is shown of a trend. -/
def figureNames : List String := ["count", "avg", "min", "med", "max", "p90", "p95", "p99"]

/-- The names of all rows but those of the iterations and of criteria. -/
def bodyNames (scenario : Scenario) (hasInventory : Bool) : List String :=
  ["peak_vus", "run_duration_ms"]
    ++ (scenario.categories.map fun category => "outcome_" ++ category.name)
    ++ seriesOf scenario .counter
    ++ ((seriesOf scenario .rate).map fun name => name ++ "_rate")
    ++ ((seriesOf scenario .trend).flatMap fun name => figureNames.map fun figure => name ++ "_" ++ figure)
    ++ if hasInventory then ["inventory_consumed"] else []

/-- The row of a criterion. -/
def criterionRow (t : Threshold.Result) : Row :=
  ⟨"threshold_" ++ criterionName t.metric t.source, "check", if t.passed then "1" else "0"⟩

/-- The names of all rows, in some order. -/
def rowNames (scenario : Scenario) (r : Report) : List String :=
  "iterations" :: bodyNames scenario r.inventory.isSome ++ r.thresholds.map fun t => (criterionRow t).name

/-- No name is the name of two series, figures or outcomes, and none looks like that of a criterion. -/
theorem bodyNames_plain (scenario : Scenario) (hasInventory : Bool) :
    (bodyNames scenario hasInventory).Nodup ∧ ∀ name ∈ bodyNames scenario hasInventory,
      (∀ c ∈ name.toList, c ∉ separators) ∧ ¬ "threshold_".toList <+: name.toList := by
  have hall : (bodyNames scenario true).Nodup ∧ ∀ name ∈ bodyNames scenario true,
      (∀ c ∈ name.toList, c ∉ separators) ∧ ¬ "threshold_".toList <+: name.toList := by
    cases scenario with
    | couponIssue => decide +kernel
    | popularProducts threshold =>
        exact show (bodyNames (.popularProducts .zero) true).Nodup ∧ ∀ name ∈ bodyNames (.popularProducts .zero) true,
          (∀ c ∈ name.toList, c ∉ separators) ∧ ¬ "threshold_".toList <+: name.toList by decide +kernel
  cases hasInventory with
  | true => exact hall
  | false =>
      have hsublist : (bodyNames scenario false).Sublist (bodyNames scenario true) :=
        List.Sublist.append_left (List.nil_sublist _) _
      exact ⟨hall.1.sublist hsublist, fun name mem => hall.2 name (hsublist.subset mem)⟩

theorem nodup_seriesOf (scenario : Scenario) (kind : Kind) : (seriesOf scenario kind).Nodup := by
  have hall : (scenario.catalog.map (·.1)).Nodup := by
    cases scenario with
    | couponIssue => decide +kernel
    | popularProducts threshold =>
        exact show ((Scenario.popularProducts .zero).catalog.map (·.1)).Nodup by decide +kernel
  exact hall.sublist (List.filter_sublist.map _)

/-- **A report is of a scenario and criteria** if it has the series and outcomes of the scenario and judges the
criteria by what it shows. -/
structure Covers (scenario : Scenario) (specs : List Spec) (r : Report) : Prop where
  series : HasSeries scenario.catalog r.metrics
  outcomes : r.outcomes.keys.Perm (scenario.categories.map (·.name))
  iterations : r.iterations = r.metrics.counter "iterations"
  thresholds : ∃ elapsed, r.thresholds = specs.map (·.judge r.metrics elapsed)

/-- All rows but those of the iterations and of criteria. -/
def bodyRows (r : Report) : List Row :=
  [⟨"peak_vus", "gauge", toString r.peakUsers⟩, ⟨"run_duration_ms", "gauge", toString r.runMillis⟩]
    ++ r.outcomes.entries.map (fun (name, n) => ⟨"outcome_" ++ name, "counter", toString n⟩)
    ++ r.metrics.counters.entries.map (fun (name, n) => ⟨name, "counter", toString n⟩)
    ++ r.metrics.rates.entries.map (fun (name, x) => ⟨name ++ "_rate", "gauge", x.rate.fixedText 4⟩)
    ++ r.metrics.trends.entries.flatMap (fun (name, t) => trendRows name t)
    ++ (r.inventory.map fun i => ⟨"inventory_consumed", "gauge", toString i.consumed⟩).toList

theorem rows_eq (r : Report) : r.rows
    = ⟨"iterations", "counter", toString r.iterations⟩ :: (bodyRows r ++ r.thresholds.map criterionRow) := rfl

section Rows

variable {scenario : Scenario} {specs : List Spec} {r : Report}

theorem perm_seriesOf {α : Type} {table : Table α} {kind : Kind}
    (h : ∀ name, name ∈ table.keys ↔ (name, kind) ∈ scenario.catalog) :
    table.keys.Perm (seriesOf scenario kind) := by
  refine (List.perm_ext_iff_of_nodup table.nodup_keys (nodup_seriesOf scenario kind)).mpr ?_
  intro name
  rw [h, mem_seriesOf]

theorem names_trendRows (name : String) (t : TrendSummary) :
    (trendRows name t).map Row.name = figureNames.map fun figure => name ++ "_" ++ figure := by
  have hcount : name ++ "_count" = name ++ "_" ++ "count" := by
    rw [String.append_assoc]
    rfl
  simp [trendRows, TrendSummary.figures, figureNames, hcount]

/-- Each figure and outcome has one row. -/
theorem names_bodyRows (covers : Covers scenario specs r) :
    ((bodyRows r).map Row.name).Perm (bodyNames scenario r.inventory.isSome) := by
  have hnames : (bodyRows r).map Row.name = ["peak_vus", "run_duration_ms"]
      ++ r.outcomes.keys.map (fun name => "outcome_" ++ name) ++ r.metrics.counters.keys
      ++ r.metrics.rates.keys.map (fun name => name ++ "_rate")
      ++ r.metrics.trends.keys.flatMap (fun name => figureNames.map fun figure => name ++ "_" ++ figure)
      ++ if r.inventory.isSome then ["inventory_consumed"] else [] := by
    have hinventory : ((r.inventory.map fun i =>
        (⟨"inventory_consumed", "gauge", toString i.consumed⟩ : Row)).toList).map Row.name
          = if r.inventory.isSome then ["inventory_consumed"] else [] := by
      cases r.inventory <;> rfl
    simp only [bodyRows, List.map_append, hinventory, List.map_flatMap, names_trendRows, Table.keys, List.map_map,
      List.flatMap_map]
    rfl
  rw [hnames, bodyNames]
  refine List.Perm.append_right _ (List.Perm.append (List.Perm.append (List.Perm.append
    (List.Perm.append_left _ ?_) ?_) ?_) ?_)
  · have houtcomes := covers.outcomes.map fun name => "outcome_" ++ name
    rwa [List.map_map] at houtcomes
  · exact perm_seriesOf covers.series.counters
  · exact (perm_seriesOf covers.series.rates).map _
  · exact (perm_seriesOf covers.series.trends).flatMap_right _

theorem subset_of_mem_bodyRows {row : Row} (mem : row ∈ bodyRows r) :
    row.kind.toList ⊆ fieldLetters ∧ row.value.toList ⊆ fieldLetters := by
  have hcounter : "counter".toList ⊆ fieldLetters := by decide
  have hgauge : "gauge".toList ⊆ fieldLetters := by decide
  simp only [bodyRows, trendRows, List.mem_append, List.mem_cons, List.not_mem_nil, or_false, List.mem_map,
    List.mem_flatMap, Option.mem_toList, Option.map_eq_some_iff] at mem
  rcases mem with (((((rfl | rfl) | ⟨entry, -, rfl⟩) | ⟨entry, -, rfl⟩) | ⟨entry, -, rfl⟩)
      | ⟨entry, -, rfl | ⟨figure, -, rfl⟩⟩) | ⟨inventory, -, rfl⟩
  · exact ⟨hgauge, toString_word_subset _⟩
  · exact ⟨hgauge, toString_word_subset _⟩
  · exact ⟨hcounter, toString_word_subset _⟩
  · exact ⟨hcounter, toString_word_subset _⟩
  · exact ⟨hgauge, fixedText_subset 4 _⟩
  · exact ⟨hcounter, toString_word_subset _⟩
  · exact ⟨hgauge, fixedText_subset 3 _⟩
  · exact ⟨hgauge, toString_int_subset _⟩

theorem clean_of_mem_bodyRows (covers : Covers scenario specs r) {row : Row} (mem : row ∈ bodyRows r) :
    ∀ field ∈ row.fields, ∀ c ∈ field.toList, c ∉ separators := by
  have hname : row.name ∈ bodyNames scenario r.inventory.isSome :=
    (names_bodyRows covers).subset (List.mem_map_of_mem mem)
  obtain ⟨hkind, hvalue⟩ := subset_of_mem_bodyRows mem
  simp only [Row.fields, List.forall_mem_cons]
  refine ⟨((bodyNames_plain scenario _).2 _ hname).1, ?_, ?_, List.forall_mem_nil _⟩
  · intro c hc
    exact not_mem_separators (hkind hc)
  · intro c hc
    exact not_mem_separators (hvalue hc)

/-- The row of the iterations is that of their counter, too. -/
theorem iterations_mem_bodyRows (covers : Covers scenario specs r) :
    (⟨"iterations", "counter", toString r.iterations⟩ : Row) ∈ bodyRows r := by
  have hkey : "iterations" ∈ r.metrics.counters.keys :=
    (covers.series.counters "iterations").mpr (by simp [Scenario.catalog])
  obtain ⟨n, hfound⟩ := Option.isSome_iff_exists.mp (Table.isSome_find?_iff.mpr hkey)
  have hvalue : r.iterations = n := by
    rw [covers.iterations, Snapshot.counter, hfound]
    rfl
  have hentry : ("iterations", n) ∈ r.metrics.counters.entries := Table.mem_entries_iff.mpr hfound
  rw [hvalue]
  simp only [bodyRows, List.mem_append]
  exact .inl (.inl (.inl (.inr (List.mem_map.mpr ⟨_, hentry, rfl⟩))))

/-- A row is that of a criterion or one of the others. -/
theorem mem_rows (covers : Covers scenario specs r) {row : Row} (mem : row ∈ r.rows) :
    row ∈ bodyRows r ∨ ∃ t ∈ r.thresholds, row = criterionRow t := by
  rw [rows_eq] at mem
  rcases List.mem_cons.mp mem with rfl | mem
  · exact .inl (iterations_mem_bodyRows covers)
  · rcases List.mem_append.mp mem with mem | mem
    · exact .inl mem
    · obtain ⟨t, ht, rfl⟩ := List.mem_map.mp mem
      exact .inr ⟨t, ht, rfl⟩

end Rows

/-! ### Criteria -/

/-- A criterion of a scenario as it is written. -/
structure Written (scenario : Scenario) (spec : Spec) : Prop where
  metric : ∃ kind, (spec.metric, kind) ∈ scenario.catalog
  source : spec.expression.Spells spec.source.toList

section Criteria

variable {scenario : Scenario} {specs : List Spec} {r : Report}

/-- Criteria of one name pass or fail together. -/
theorem criterionRow_inj {spec spec' : Spec} (written : Written scenario spec) (written' : Written scenario spec')
    {snapshot : Snapshot} {elapsed : Duration}
    (heq : (criterionRow (spec.judge snapshot elapsed)).name = (criterionRow (spec'.judge snapshot elapsed)).name) :
    criterionRow (spec.judge snapshot elapsed) = criterionRow (spec'.judge snapshot elapsed) := by
  obtain ⟨⟨kind, hkind⟩, hspells⟩ := written
  obtain ⟨⟨kind', hkind'⟩, hspells'⟩ := written'
  obtain ⟨parts⟩ := nonempty_parts hspells
  obtain ⟨parts'⟩ := nonempty_parts hspells'
  have hname : criterionName spec.metric spec.source = criterionName spec'.metric spec'.source := by
    simpa [criterionRow, Spec.judge, ← String.toList_inj] using heq
  obtain ⟨hmetric, hexpression⟩ := eq_of_criterionName hkind hkind' parts parts' hname
  have hpassed : (spec.judge snapshot elapsed).passed = (spec'.judge snapshot elapsed).passed := by
    simp only [Spec.judge, Spec.observed?, hmetric, hexpression]
  have hrow (t : Threshold.Result) : criterionRow t
      = ⟨(criterionRow t).name, "check", if t.passed then "1" else "0"⟩ := rfl
  rw [hrow (spec.judge snapshot elapsed), hrow (spec'.judge snapshot elapsed), heq, hpassed]

/-- No figure and no outcome is named like a criterion. -/
theorem name_ne_criterionRow (covers : Covers scenario specs r) {row : Row} (mem : row ∈ bodyRows r)
    (t : Threshold.Result) : row.name ≠ (criterionRow t).name := by
  intro heq
  have hname : row.name ∈ bodyNames scenario r.inventory.isSome :=
    (names_bodyRows covers).subset (List.mem_map_of_mem mem)
  refine ((bodyNames_plain scenario _).2 _ hname).2 ?_
  rw [heq, criterionRow, String.toList_append]
  exact List.prefix_append _ _

/-- **Rows of one name are the same row.** -/
theorem row_eq_of_name_eq (covers : Covers scenario specs r) (written : ∀ spec ∈ specs, Written scenario spec)
    {a b : Row} (ha : a ∈ r.rows) (hb : b ∈ r.rows) (heq : a.name = b.name) : a = b := by
  rcases mem_rows covers ha with ha | ⟨t, ht, rfl⟩ <;> rcases mem_rows covers hb with hb | ⟨t', ht', rfl⟩
  · have hnodup : ((bodyRows r).map Row.name).Nodup :=
      (names_bodyRows covers).nodup_iff.mpr (bodyNames_plain scenario _).1
    exact List.inj_on_of_nodup_map hnodup ha hb heq
  · exact absurd heq (name_ne_criterionRow covers ha t')
  · exact absurd heq.symm (name_ne_criterionRow covers hb t)
  · obtain ⟨elapsed, hresults⟩ := covers.thresholds
    rw [hresults] at ht ht'
    obtain ⟨spec, hspec, rfl⟩ := List.mem_map.mp ht
    obtain ⟨spec', hspec', rfl⟩ := List.mem_map.mp ht'
    exact criterionRow_inj (written spec hspec) (written spec' hspec') heq

/-- Of all separators only line breaks stand in the row of a criterion, and only those of its text. -/
theorem separators_criterionRow {t : Threshold.Result} {kind : Kind} {e : Expression}
    (hkind : (t.metric, kind) ∈ scenario.catalog) (hspells : e.Spells t.source.toList) {c : Char}
    (hc : c ∈ separators) :
    (c ∈ (criterionRow t).name.toList ↔ c ∈ lineBreaks ∧ c ∈ t.source.toList)
      ∧ c ∉ (criterionRow t).kind.toList ∧ c ∉ (criterionRow t).value.toList := by
  have hall : ∀ c ∈ separators, isKept c = true ∧ c ∉ nameLetters ∧ Comparison.isSign c = false
      ∧ c ∉ "threshold_".toList ∧ c ∉ "check".toList ∧ c ∉ "1".toList ∧ c ∉ "0".toList
      ∧ (c ∈ lineBreaks ∨ c = ',') := by decide +kernel
  obtain ⟨hkept, hletter, hsign, hprefix, hcheck, hone, hzero, hbreak⟩ := hall c hc
  obtain ⟨parts⟩ := nonempty_parts hspells
  have hname := mem_criterionName_iff (plain_catalog scenario _ hkind).1 parts hkept hletter hsign
  refine ⟨?_, hcheck, ?_⟩
  · rw [criterionRow, String.toList_append, List.mem_append, or_iff_right hprefix, hname]
    refine ⟨fun mem => ⟨hbreak.resolve_right ?_, mem⟩, And.right⟩
    rintro rfl
    exact comma_not_mem hspells mem
  · rw [criterionRow]
    split
    · exact hone
    · exact hzero

/-- A separator in a row is a line break in the name of a criterion, from its text. -/
theorem separators_row (covers : Covers scenario specs r) (written : ∀ spec ∈ specs, Written scenario spec)
    {row : Row} (mem : row ∈ r.rows) {c : Char} (hc : c ∈ separators) :
    (c ∈ row.name.toList → c ∈ lineBreaks ∧ ∃ spec ∈ specs, c ∈ spec.source.toList)
      ∧ c ∉ row.kind.toList ∧ c ∉ row.value.toList := by
  rcases mem_rows covers mem with mem | ⟨t, ht, rfl⟩
  · have hclean := clean_of_mem_bodyRows covers mem
    simp only [Row.fields, List.forall_mem_cons] at hclean
    obtain ⟨hname, hkind, hvalue, -⟩ := hclean
    exact ⟨fun h => absurd hc (hname c h), fun h => hkind c h hc, fun h => hvalue c h hc⟩
  · obtain ⟨elapsed, hresults⟩ := covers.thresholds
    rw [hresults] at ht
    obtain ⟨spec, hspec, rfl⟩ := List.mem_map.mp ht
    obtain ⟨⟨kind, hkind⟩, hspells⟩ := written spec hspec
    have hrow := separators_criterionRow (t := spec.judge r.metrics elapsed) hkind hspells hc
    refine ⟨fun h => ?_, hrow.2⟩
    obtain ⟨hbreak, hsource⟩ := hrow.1.mp h
    exact ⟨hbreak, spec, hspec, hsource⟩

/-- **What the table of a report is.** -/
structure Tabular (scenario : Scenario) (specs : List Spec) (r : Report) : Prop where
  /-- It has one row for each figure, outcome and criterion. -/
  names : (r.rows.map Row.name).Perm (rowNames scenario r)
  /-- Rows of one name are the same row. -/
  same : ∀ a ∈ r.rows, ∀ b ∈ r.rows, a.name = b.name → a = b
  commas : ∀ row ∈ r.rows, ∀ field ∈ row.fields, ',' ∉ field.toList
  /-- A name has a line break exactly if the text of a criterion has one inside; other fields have none. -/
  breaks : ∀ c ∈ lineBreaks, ((∃ row ∈ r.rows, c ∈ row.name.toList) ↔ ∃ spec ∈ specs, c ∈ spec.source.toList)
    ∧ ∀ row ∈ r.rows, c ∉ row.kind.toList ∧ c ∉ row.value.toList
  /-- Without newlines in names a reader finds heading and rows, and nothing behind the last newline. -/
  read : (∀ spec ∈ specs, '\n' ∉ spec.source.toList) →
    readCsv r.csv = heading.fields :: r.rows.map Row.fields ++ [[""]]

/-- The table of a report that is of a scenario and its criteria. -/
theorem tabular_of_covers (covers : Covers scenario specs r) (written : ∀ spec ∈ specs, Written scenario spec) :
    Tabular scenario specs r := by
  have hseparators {row : Row} (mem : row ∈ r.rows) {c : Char} (hc : c ∈ separators) :=
    separators_row covers written mem hc
  have commas : ∀ row ∈ r.rows, ∀ field ∈ row.fields, ',' ∉ field.toList := by
    intro row mem
    obtain ⟨hname, hkind, hvalue⟩ := hseparators mem (c := ',') (by decide)
    have hcomma : ',' ∉ row.name.toList := fun h => absurd (hname h).1 (by decide)
    simp [Row.fields, hcomma, hkind, hvalue]
  refine ⟨?_, fun a ha b hb => row_eq_of_name_eq covers written ha hb, commas, ?_, ?_⟩
  · rw [rows_eq, List.map_cons, List.map_append, List.map_map]
    exact ((names_bodyRows covers).append_right _).cons _
  · intro c hc
    have hseparator : c ∈ separators := List.mem_cons_of_mem _ hc
    refine ⟨⟨?_, ?_⟩, fun row mem => (hseparators mem hseparator).2⟩
    · intro ⟨row, mem, hname⟩
      exact ((hseparators mem hseparator).1 hname).2
    · intro ⟨spec, hspec, hsource⟩
      obtain ⟨elapsed, hresults⟩ := covers.thresholds
      obtain ⟨⟨kind, hkind⟩, hspells⟩ := written spec hspec
      have hresult : spec.judge r.metrics elapsed ∈ r.thresholds := hresults ▸ List.mem_map_of_mem hspec
      refine ⟨criterionRow (spec.judge r.metrics elapsed), ?_, ?_⟩
      · rw [rows_eq]
        exact List.mem_cons_of_mem _ (List.mem_append_right _ (List.mem_map_of_mem hresult))
      · exact (separators_criterionRow (t := spec.judge r.metrics elapsed) hkind hspells hseparator).1.mpr
          ⟨hc, hsource⟩
  · intro hsources
    refine readCsv_csv commas ?_
    intro row mem
    obtain ⟨hname, hkind, hvalue⟩ := hseparators mem (c := '\n') (by decide)
    have hnewline : '\n' ∉ row.name.toList := by
      intro h
      obtain ⟨-, spec, hspec, hsource⟩ := hname h
      exact hsources spec hspec hsource
    simp [Row.fields, hnewline, hkind, hvalue]

end Criteria

end Report

/-! ### Reports of runs -/

namespace Simulation

open Report Crowd

/-- A report of a run is of the scenario and criteria of its plan. -/
theorem covers_of_reaches {setting : Setting} {upcoming : List (Nat × Command)} {cancelAt : Option Nat}
    {state : State} {report : Report} (reaches : State.Reaches setting upcoming cancelAt state)
    (reported : state.outcome? = some (.reported report)) :
    Covers setting.plan.scenario setting.plan.thresholds report := by
  obtain ⟨moves, fits⟩ := State.sound_of_reaches reaches
  rw [State.phase_of_outcome? reported] at fits
  obtain ⟨-, info, snapshot, load, active, hcategories, hsnapshot, -, rfl, -⟩ := fits
  rw [(accounted_of_moves moves).sink, Outcome.recordAll_eq_addAll] at hsnapshot
  simp only [initial, Scenario.sink] at hsnapshot
  rw [← recorded] at hsnapshot
  refine ⟨hasSeries_of_snapshot? hsnapshot, ?_, rfl, active, rfl⟩
  let report := Report.build info snapshot (evaluate setting.plan.thresholds snapshot active)
  have houtcomes : report.outcomes.entries.Perm _ := outcomes_perm hcategories
  have hkeys := houtcomes.map (·.1)
  rwa [List.map_map] at hkeys

/-- The criteria of a plan are written as criteria on its series. -/
theorem written_of_resolve {config : Config} {plan : Plan} (resolved : config.resolve = .ok plan) :
    ∀ spec ∈ plan.thresholds, Written plan.scenario spec := by
  have h := Config.resolve_eq_ok_iff.mp resolved
  intro spec mem
  obtain ⟨kind, hkind, -⟩ := Config.checkThresholds_eq_ok_iff.mp h.checked spec mem
  obtain ⟨given, -, -, hsource, hread, -⟩ :=
    exists_of_mem_forall₂ (Config.resolveThresholds_eq_ok_iff.mp h.thresholds) mem
  refine ⟨⟨kind, hkind⟩, ?_⟩
  rw [Text.core_iff.mp hsource, Text.trim, String.toList_ofList]
  exact (Expression.ofText?_eq_ok_iff_spells.mp hread).trim

/-- **Every report of an accepted configuration has a table.** -/
theorem table_of_report {config : Config} {setting : Setting} {upcoming : List (Nat × Command)}
    {cancelAt : Option Nat} {state : State} {report : Report} (resolved : config.resolve = .ok setting.plan)
    (reaches : State.Reaches setting upcoming cancelAt state)
    (reported : state.outcome? = some (.reported report)) :
    Tabular setting.plan.scenario setting.plan.thresholds report :=
  tabular_of_covers (covers_of_reaches reaches reported) (written_of_resolve resolved)

/-! ### A run without users -/

/-- A run that is over at once, with a criterion on its latencies. -/
def idle (criterion : String) : Config where
  baseUrl := some "http://t"
  scenario := some (.couponIssue none (some ⟨none, some 0, none⟩))
  stages := some [⟨"0ms", 0⟩]
  thresholds := some (Table.empty.insert "http_req_duration" [.bare criterion])
  inventory := some { enabled := some false }

/-- A plan against a target that nobody can connect to. -/
def unreachable (plan : Plan) : Setting := { plan, target := fun _ _ => ⟨.zero, .error (.connection "refused")⟩ }

/-- The end of that run. -/
def idleEnd (plan : Plan) : State := (State.start (unreachable plan) [] none).run (unreachable plan) 10

/-- Whether criteria are written in some way, and a run with them ends with a report. -/
def reportsIdle (p : List Spec → Bool) (plan : Plan) : Bool :=
  p plan.thresholds && ((idleEnd plan).outcome?.bind Outcome.report?).isSome

theorem of_reportsIdle {config : Config} {p : List Spec → Bool}
    (h : config.resolve.toOption.any (reportsIdle p) = true) :
    ∃ plan report, config.resolve = .ok plan ∧ p plan.thresholds = true
      ∧ State.Reaches (unreachable plan) [] none (idleEnd plan)
      ∧ (idleEnd plan).outcome? = some (.reported report) := by
  obtain ⟨plan, hresolve, hreports⟩ := exists_ok_of_any h
  obtain ⟨hp, hreport⟩ := (Bool.and_eq_true ..).mp hreports
  obtain ⟨report, hreport⟩ := Option.isSome_iff_exists.mp hreport
  exact ⟨plan, report, hresolve, hp, State.reaches_run _ [] none 10, Outcome.eq_of_report? hreport⟩

/-- A criterion written with spaces has a row like any other. -/
theorem spaced_criterion_tabled : ∃ plan report, (idle "p( 95 ) <= 300").resolve = .ok plan
    ∧ (idleEnd plan).outcome? = some (.reported report)
    ∧ Tabular plan.scenario plan.thresholds report
    ∧ readCsv report.csv = heading.fields :: report.rows.map Row.fields ++ [[""]] := by
  have hany : (idle "p( 95 ) <= 300").resolve.toOption.any
      (reportsIdle fun specs => specs.all fun spec => decide ('\n' ∉ spec.source.toList)) = true := by decide +kernel
  obtain ⟨plan, report, resolved, hspecs, reaches, reported⟩ := of_reportsIdle hany
  have htabular : Tabular plan.scenario plan.thresholds report := table_of_report resolved reaches reported
  refine ⟨plan, report, resolved, reported, htabular, htabular.read ?_⟩
  simpa using hspecs

/-- **A line break inside a criterion breaks its row.** The configuration is accepted. -/
theorem broken_criterion_breaks_row : ∃ plan report, (idle "p95\n<300").resolve = .ok plan
    ∧ State.Reaches (unreachable plan) [] none (idleEnd plan)
    ∧ (idleEnd plan).outcome? = some (.reported report)
    ∧ ∃ row ∈ report.rows, '\n' ∈ row.name.toList := by
  have hany : (idle "p95\n<300").resolve.toOption.any
      (reportsIdle fun specs => specs.any fun spec => decide ('\n' ∈ spec.source.toList)) = true := by decide +kernel
  obtain ⟨plan, report, resolved, hspecs, reaches, reported⟩ := of_reportsIdle hany
  have htabular := tabular_of_covers (covers_of_reaches reaches reported) (written_of_resolve resolved)
  refine ⟨plan, report, resolved, reaches, reported, (htabular.breaks '\n' (by decide)).1.mpr ?_⟩
  simpa [unreachable] using hspecs

end Simulation

end LoadTest
