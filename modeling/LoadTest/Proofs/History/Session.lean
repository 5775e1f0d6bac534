import LoadTest.Proofs.History

/-!
# LoadTest.Proofs.History.Session

Sessions with the log of finished runs: reports are saved, runs are listed and reports are asked for, in any order.
**What the log answers is read off the reports saved before, newest first** (`Answered`): a saved run has a greater
number than any before, a listing is the newest of them, and a report is found under the numbers of saved runs
alone. It comes back without the samples of its trends, and with each double as the JSON reader takes its number
(`Report.reread?`), which is not always the double that was written (`one_of_eleven_is_changed`).
-/

namespace LoadTest.History

open LoadTest.Metric

/-! ### Sessions -/

/-- What is asked of a log. -/
inductive Call where
  | save (report : Report)
  | list (limit : UInt64)
  | get (id : Int)

/-- What is said of a run in a listing. -/
structure Row where
  id : Nat
  startTime : String
  scenario : String
  passed : Bool

/-- What a log answers. -/
inductive Answer where
  | saved (id : Nat)
  | listed (rows : List Row)
  | found (report : Option Report)

/-- The columns of a run that are listed. -/
def row (run : Run) : Row := ⟨run.id, run.startTime, run.scenario, run.passed⟩

/-- The answer to a call. -/
def answer (h : History) : Call → Answer
  | .save _ => .saved h.nextId
  | .list limit => .listed ((h.newest limit).map row)
  | .get id => .found (h.report? id)

/-- The log after a call. -/
def after (h : History) : Call → History
  | .save report => h.save report
  | .list _ => h
  | .get _ => h

/-- The answers to the calls of a session, and the log in the end. -/
def session (h : History) : List Call → List Answer × History
  | [] => ([], h)
  | call :: calls => ((h.answer call :: ((h.after call).session calls).1), ((h.after call).session calls).2)

/-- The reports that are saved in a session. -/
def saves (calls : List Call) : List Report :=
  calls.filterMap fun
    | .save report => some report
    | _ => none

/-! ### What is to be answered -/

/-- What is listed of a report that was saved under a number. -/
def rowOf (entry : Nat × Report) : Row := ⟨entry.1, entry.2.startedAt, entry.2.scenario, entry.2.passed⟩

/-- The answers that calls may have, from the reports saved before under their numbers, newest first. Only saving
adds one to these, and nothing takes one away. -/
inductive Answered : List (Nat × Report) → List Call → List Answer → List (Nat × Report) → Prop where
  | done {saved : List (Nat × Report)} : Answered saved [] [] saved
  /-- The new number is greater than all before. -/
  | save {saved last : List (Nat × Report)} {calls : List Call} {answers : List Answer} {id : Nat} {report : Report}
      (greater : ∀ entry ∈ saved, entry.1 < id) (rest : Answered ((id, report) :: saved) calls answers last) :
      Answered saved (.save report :: calls) (.saved id :: answers) last
  /-- As many of the newest as were asked for, or all if there are fewer. -/
  | list {saved last : List (Nat × Report)} {calls : List Call} {answers : List Answer} {limit : UInt64}
      (rest : Answered saved calls answers last) :
      Answered saved (.list limit :: calls) (.listed ((saved.take limit.toNat).map rowOf) :: answers) last
  /-- The report of the number, whatever was saved after it. -/
  | found {saved last : List (Nat × Report)} {calls : List Call} {answers : List Answer} {id : Nat}
      {report read : Report} (mem : (id, report) ∈ saved) (finite : ∀ x ∈ report.metrics.doubles, x.isFinite = true)
      (reread : report.reread? = some read)
      (same : (∀ x ∈ report.doubles, Json.reread? x = some x) → read = report.withoutSamples)
      (rest : Answered saved calls answers last) :
      Answered saved (.get id :: calls) (.found (some read) :: answers) last
  /-- What is not finite has no number, so there is nothing to read. -/
  | broken {saved last : List (Nat × Report)} {calls : List Call} {answers : List Answer} {id : Nat}
      {report : Report} (mem : (id, report) ∈ saved) (infinite : ¬ ∀ x ∈ report.metrics.doubles, x.isFinite = true)
      (rest : Answered saved calls answers last) : Answered saved (.get id :: calls) (.found none :: answers) last
  /-- No report has the number. -/
  | unknown {saved last : List (Nat × Report)} {calls : List Call} {answers : List Answer} {id : Int}
      (fresh : ∀ entry ∈ saved, (entry.1 : Int) ≠ id) (rest : Answered saved calls answers last) :
      Answered saved (.get id :: calls) (.found none :: answers) last

/-! ### The log and the reports in it -/

/-- The log holds the reports under their numbers. -/
structure Holds (h : History) (saved : List (Nat × Report)) : Prop where
  runs : h.runs.reverse = saved.map fun entry => runOf entry.1 entry.2
  ascending : h.Ascending
  signed : ∀ entry ∈ saved, ∀ i ∈ entry.2.inventory, i.Signed

variable {h : History} {saved : List (Nat × Report)}

theorem holds_empty : Holds empty [] := ⟨rfl, ascending_empty, by simp⟩

theorem Holds.mem_runs_iff (holds : Holds h saved) {run : Run} :
    run ∈ h.runs ↔ ∃ entry ∈ saved, runOf entry.1 entry.2 = run := by
  rw [← List.mem_reverse, holds.runs, List.mem_map]

theorem Holds.lt_nextId (holds : Holds h saved) : ∀ entry ∈ saved, entry.1 < h.nextId := by
  intro entry mem
  have hrun : runOf entry.1 entry.2 ∈ h.runs := holds.mem_runs_iff.mpr ⟨entry, mem, rfl⟩
  exact holds.ascending.lt_nextId hrun

theorem Holds.save (holds : Holds h saved) {report : Report} (signed : ∀ i ∈ report.inventory, i.Signed) :
    Holds (h.save report) ((h.nextId, report) :: saved) where
  runs := by
    rw [runs_save, List.reverse_append, List.reverse_singleton, List.singleton_append, holds.runs]
    rfl
  ascending := holds.ascending.save report
  signed := List.forall_mem_cons.mpr ⟨signed, holds.signed⟩

/-- **A listing is the newest runs, newest first,** however large the limit. -/
theorem Holds.map_newest (holds : Holds h saved) (few : saved.length < signedLimit) (limit : UInt64) :
    (h.newest limit).map row = (saved.take limit.toNat).map rowOf := by
  have hrows : ∀ entries : List (Nat × Report),
      (entries.map fun entry => runOf entry.1 entry.2).map row = entries.map rowOf := by
    intro entries
    rw [List.map_map]
    rfl
  unfold newest
  rw [holds.runs]
  split
  · rw [← List.map_take, hrows]
  · next hlarge =>
    -- A limit that is no signed integer is none, and more than there are runs.
    rw [hrows, List.take_of_length_le (by omega)]

theorem Holds.report?_of_mem (holds : Holds h saved) {id : Nat} {report : Report} (mem : (id, report) ∈ saved) :
    h.report? id = report.reread? := by
  have hfound : h.find? id = some (runOf id report) :=
    holds.ascending.find?_id (holds.mem_runs_iff.mpr ⟨(id, report), mem, rfl⟩)
  rw [report?, hfound]
  exact Report.ofText?_eq_reread? (holds.signed _ mem) _

theorem Holds.report?_of_fresh (holds : Holds h saved) {id : Int} (fresh : ∀ entry ∈ saved, (entry.1 : Int) ≠ id) :
    h.report? id = none := by
  have hfound : h.find? id = none := by
    refine List.find?_eq_none.mpr ?_
    intro run mem heq
    obtain ⟨entry, hentry, rfl⟩ := holds.mem_runs_iff.mp mem
    exact fresh entry hentry (of_decide_eq_true heq)
  rw [report?, hfound]
  rfl

/-- One call is answered from what the log holds. -/
theorem Holds.answered_get (holds : Holds h saved) (id : Int) {calls : List Call} {answers : List Answer}
    {last : List (Nat × Report)} (rest : Answered saved calls answers last) :
    Answered saved (.get id :: calls) (h.answer (.get id) :: answers) last := by
  rw [answer]
  by_cases hsaved : ∃ entry ∈ saved, (entry.1 : Int) = id
  · obtain ⟨⟨number, report⟩, mem, rfl⟩ := hsaved
    rw [holds.report?_of_mem mem]
    by_cases finite : ∀ x ∈ report.metrics.doubles, x.isFinite = true
    · obtain ⟨read, hread⟩ := Option.isSome_iff_exists.mp (Report.isSome_reread?_iff.mpr finite)
      rw [hread]
      refine .found mem finite hread ?_ rest
      intro kept
      exact Option.some.inj (hread.symm.trans (Report.reread?_eq_some kept))
    · have hnone : report.reread? = none := by
        rw [← Option.not_isSome_iff_eq_none, Report.isSome_reread?_iff]
        exact finite
      rw [hnone]
      exact .broken mem finite rest
  · have fresh : ∀ entry ∈ saved, (entry.1 : Int) ≠ id := by
      intro entry mem heq
      exact hsaved ⟨entry, mem, heq⟩
    rw [holds.report?_of_fresh fresh]
    exact .unknown fresh rest

/-- **Whatever is asked of a log, and in whatever order, is answered from the reports that it holds.** -/
theorem Holds.answered (holds : Holds h saved) (calls : List Call)
    (signed : ∀ report ∈ saves calls, ∀ i ∈ report.inventory, i.Signed)
    (few : saved.length + (saves calls).length < signedLimit) :
    ∃ last, Answered saved calls (h.session calls).1 last ∧ Holds (h.session calls).2 last := by
  induction calls generalizing h saved with
  | nil => exact ⟨saved, .done, holds⟩
  | cons call calls ih =>
      cases call with
      | save report =>
          obtain ⟨hreport, hrest⟩ := List.forall_mem_cons.mp signed
          have hfew : saved.length + ((saves calls).length + 1) < signedLimit := few
          obtain ⟨last, hanswered, hlast⟩ := ih (holds.save hreport) hrest (by rw [List.length_cons]; omega)
          exact ⟨last, .save holds.lt_nextId hanswered, hlast⟩
      | list limit =>
          obtain ⟨last, hanswered, hlast⟩ := ih holds signed few
          refine ⟨last, ?_, hlast⟩
          rw [History.session, answer, holds.map_newest (by omega) limit]
          exact .list hanswered
      | get id =>
          obtain ⟨last, hanswered, hlast⟩ := ih holds signed few
          exact ⟨last, holds.answered_get id hanswered, hlast⟩

/-- **The log of finished runs is read newest first.** In a session with a new log the numbers of saved runs ascend;
every listing has the newest runs, up to the limit, with the start time, the scenario and the verdict of the report that
was saved under each number; and a report is found under exactly the numbers of saved runs, unless it has doubles that
are not finite. It is the one that was saved there, without samples and with its doubles as their numbers are read.
Listing runs and asking for reports leaves the log as it is. -/
theorem answers_newest_first (calls : List Call) (signed : ∀ report ∈ saves calls, ∀ i ∈ report.inventory, i.Signed)
    (few : (saves calls).length < signedLimit) :
    ∃ last, Answered [] calls (empty.session calls).1 last ∧ Holds (empty.session calls).2 last :=
  holds_empty.answered calls signed (by simpa using few)

/-! ### A run with one error in eleven requests -/

/-- One request in eleven failed. -/
def oneOfEleven : Report where
  scenario := "coupon-issue"
  tags := Table.empty
  startedAt := "2026-03-01T12:00:00+00:00"
  runMillis := 1000
  peakUsers := 1
  iterations := 11
  outcomes := Table.empty
  metrics := ⟨Table.empty, ⟨[("errors", ⟨1, 11, Rate.share 1 11⟩)], by decide⟩, Table.empty⟩
  thresholds := []
  passed := true
  aborted := false
  inventory := none

/-- The same the day after, on a stock of which ten were used up. -/
def dayAfter : Report :=
  { oneOfEleven with startedAt := "2026-03-02T12:00:00+00:00", passed := false, inventory := some ⟨100, 90, 10⟩ }

/-- A session in which three reports are saved, the last of them before the newest two are listed. The first is asked for
twice, then the one with a stock, and one that was not saved. -/
def errand : List Call :=
  [.save oneOfEleven, .get 1, .save dayAfter, .list 20, .save oneOfEleven, .list 2, .get 1, .get 2, .get 4]

/-- The rows of an answer, if it is a listing. -/
def Answer.rows? : Answer → Option (List Row)
  | .listed rows => some rows
  | _ => none

theorem errand_is_answered : (∀ report ∈ saves errand, ∀ i ∈ report.inventory, i.Signed)
    ∧ (saves errand).length < signedLimit
    ∧ (empty.session errand).1.filterMap Answer.rows?
      = [[rowOf (2, dayAfter), rowOf (1, oneOfEleven)], [rowOf (3, oneOfEleven), rowOf (2, dayAfter)]]
    ∧ ∃ last, Answered [] errand (empty.session errand).1 last ∧ Holds (empty.session errand).2 last := by
  have hsmall {n : Int} (h : 0 ≤ n ∧ n ≤ 100) : Json.Signed n := by
    unfold Json.Signed signedLimit
    omega
  have hstock : Inventory.Signed ⟨100, 90, 10⟩ :=
    ⟨hsmall (by decide), hsmall (by decide), hsmall (by decide)⟩
  have signed : ∀ report ∈ saves errand, ∀ i ∈ report.inventory, i.Signed := by
    simpa [saves, errand, oneOfEleven, dayAfter] using hstock
  have few : (saves errand).length < signedLimit := by
    simp [saves, errand, signedLimit]
  exact ⟨signed, few, rfl, answers_newest_first errand signed few⟩

/-- **The share of one in eleven is not read back as it was written,** so the report that is found is not the one that
was saved. -/
theorem one_of_eleven_is_changed : (∀ x ∈ oneOfEleven.doubles, x.isFinite = true)
    ∧ ∃ read, (empty.save oneOfEleven).report? empty.nextId = some read
      ∧ read.metrics.rate "errors" ≠ oneOfEleven.metrics.rate "errors" := by
  have hall : oneOfEleven.doubles.all (fun x => x.isFinite) = true := by decide +kernel
  refine ⟨List.all_eq_true.mp hall, ?_⟩
  obtain ⟨share, hshare, hne⟩ : ∃ share, Json.reread? (Rate.share 1 11) = some share ∧ share ≠ Rate.share 1 11 := by
    have hany : (Json.reread? (Rate.share 1 11)).any (fun share => decide (share ≠ Rate.share 1 11)) = true := by
      decide +kernel
    obtain ⟨share, hshare, hne⟩ := (Option.any_eq_true _ _).mp hany
    exact ⟨share, hshare, of_decide_eq_true hne⟩
  have signed : ∀ i ∈ oneOfEleven.inventory, i.Signed := by simp [oneOfEleven]
  have hfound : (empty.save oneOfEleven).report? empty.nextId = oneOfEleven.reread? :=
    (holds_empty.save signed).report?_of_mem List.mem_cons_self
  have hrates : oneOfEleven.metrics.rates.mapM? RateSummary.reread?
      = some (oneOfEleven.metrics.rates.map fun r => { r with rate := share }) := by
    refine Table.mapM?_eq_some fun entry mem => ?_
    obtain rfl := List.mem_singleton.mp mem
    simp only [RateSummary.reread?, hshare, Option.map_some]
  rw [hfound, Report.reread?, Snapshot.reread?, hrates]
  exact ⟨_, rfl, hne⟩

end LoadTest.History
