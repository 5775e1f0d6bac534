import LoadTest.History
import LoadTest.Proofs.Report.Stored
import Mathlib.Data.List.Basic

/-!
# LoadTest.Proofs.History

The log of finished runs. **Saving a run adds one and changes none** (`History.runs_save`), and numbers ascend, so
the number that a run was saved under names it for good. Its report is read back from there without the samples
of its trends and shows the same as before (`Report.survives_storage`).
-/

namespace LoadTest

namespace History

/-! ### Runs are only ever added -/

/-- The run of a report under a number. -/
def runOf (id : Nat) (r : Report) : Run := ⟨id, r.startedAt, r.scenario, r.passed, r.toJson.compact⟩

/-- The log of reports saved one after the other. -/
def saveAll (h : History) (reports : List Report) : History := reports.foldl save h

theorem runs_save (h : History) (r : Report) : (h.save r).runs = h.runs ++ [runOf h.nextId r] := rfl

theorem runs_saveAll (h : History) (reports : List Report) :
    ∃ added, (h.saveAll reports).runs = h.runs ++ added ∧ added.length = reports.length := by
  induction reports generalizing h with
  | nil => exact ⟨[], (List.append_nil _).symm, rfl⟩
  | cons r rest ih =>
      obtain ⟨added, hruns, hlength⟩ := ih (h.save r)
      refine ⟨runOf h.nextId r :: added, ?_, by rw [List.length_cons, List.length_cons, hlength]⟩
      show ((h.save r).saveAll rest).runs = _
      rw [hruns, runs_save, List.append_assoc]
      rfl

/-! ### Numbers -/

/-- Later runs have greater numbers. -/
def Ascending (h : History) : Prop := h.runs.Pairwise fun a b => a.id < b.id

/-- The next number is greater than any before. -/
theorem Ascending.lt_nextId {h : History} (ascending : h.Ascending) {run : Run} (mem : run ∈ h.runs) :
    run.id < h.nextId := by
  obtain ⟨before, last, hruns⟩ := List.eq_nil_or_concat h.runs |>.resolve_left (List.ne_nil_of_mem mem)
  rw [List.concat_eq_append] at hruns
  have hnext : h.nextId = last.id + 1 := by
    rw [nextId, hruns, List.getLast?_concat]
    rfl
  rw [Ascending, hruns, List.pairwise_append] at ascending
  rw [hruns] at mem
  rcases List.mem_append.mp mem with mem | mem
  · have hless := ascending.2.2 run mem last List.mem_cons_self
    omega
  · rw [List.mem_singleton.mp mem]
    omega

theorem Ascending.save {h : History} (ascending : h.Ascending) (r : Report) : (h.save r).Ascending := by
  rw [Ascending, runs_save, List.pairwise_append]
  refine ⟨ascending, List.pairwise_singleton .., fun run mem added hadded => ?_⟩
  rw [List.mem_singleton.mp hadded]
  exact ascending.lt_nextId mem

/-- **Numbers ascend however many runs are saved.** -/
theorem Ascending.saveAll {h : History} (ascending : h.Ascending) (reports : List Report) :
    (h.saveAll reports).Ascending := by
  induction reports generalizing h with
  | nil => exact ascending
  | cons r rest ih => exact ih (ascending.save r)

theorem ascending_empty : empty.Ascending := List.Pairwise.nil

/-- A number names one run. -/
theorem Ascending.find?_id {h : History} (ascending : h.Ascending) {run : Run} (mem : run ∈ h.runs) :
    h.find? run.id = some run := by
  obtain ⟨before, after, hruns⟩ := List.append_of_mem mem
  rw [Ascending, hruns, List.pairwise_append] at ascending
  have hbefore : before.find? (fun other => (other.id : Int) = run.id) = none := by
    refine List.find?_eq_none.mpr fun other hother heq => ?_
    have hless := ascending.2.2 other hother run List.mem_cons_self
    have hsame : (other.id : Int) = run.id := of_decide_eq_true heq
    omega
  rw [find?, hruns, List.find?_append, hbefore, Option.none_or, List.find?_cons_of_pos (by simp)]

/-! ### A saved run -/

variable {h : History}

/-- A run is found under its number, however many are saved after it. -/
theorem find?_saved (ascending : h.Ascending) (r : Report) (later : List Report) :
    ((h.save r).saveAll later).find? h.nextId = some (runOf h.nextId r) := by
  obtain ⟨added, hruns, -⟩ := (h.save r).runs_saveAll later
  have mem : runOf h.nextId r ∈ ((h.save r).saveAll later).runs := by
    rw [hruns, runs_save]
    simp
  exact ((ascending.save r).saveAll later).find?_id mem

/-- A run is listed after those that were saved after it, if the list is long enough. -/
theorem newest_saved (r : Report) (later : List Report) {limit : UInt64} (room : later.length < limit.toNat) :
    (((h.save r).saveAll later).newest limit)[later.length]? = some (runOf h.nextId r) := by
  obtain ⟨added, hruns, hlength⟩ := (h.save r).runs_saveAll later
  have hreverse : ((h.save r).saveAll later).runs.reverse[later.length]? = some (runOf h.nextId r) := by
    rw [hruns, runs_save, List.reverse_append, List.reverse_append, List.getElem?_append_right (by simp [hlength])]
    simp [hlength]
  unfold newest
  split
  · rwa [List.getElem?_take_of_lt room]
  · exact hreverse

end History

namespace Report

open LoadTest.Metric Threshold

/-- **Reports survive storage.** The doubles of a report are finite, whether it was made of what a sink held or read
from a text. If its finite doubles are read back as they were written, it is read back from its JSON text in either
spacing, without the samples of its trends, and what is read has the same texts. A report that is saved stays in
the log under its number: it reads the same there, and is listed with its start time, its scenario and whether it
passed. -/
theorem survives_storage {r : Report} (made : r.Made) : (∀ x ∈ r.doubles, x.isFinite = true)
    ∧ ((∀ x ∈ r.doubles, Json.Exact x) → ∃ read, ofText? r.jsonText = some read
      ∧ ofText? r.toJson.compact = some read ∧ read = r.withoutSamples
      ∧ read.jsonText = r.jsonText ∧ read.text = r.text ∧ read.csv = r.csv
      ∧ ∀ earlier later : List Report, ∀ h, h = History.empty.saveAll earlier →
        ((h.save r).saveAll later).report? h.nextId = some read
        ∧ ∀ limit : UInt64, later.length < limit.toNat →
          ∃ run, (((h.save r).saveAll later).newest limit)[later.length]? = some run ∧ run.id = h.nextId
            ∧ run.startTime = r.startedAt ∧ run.scenario = r.scenario ∧ run.passed = r.passed) := by
  have sound := made.sound
  refine ⟨sound.finite, fun exact => ?_⟩
  have hread := ofText?_textWith sound exact
  refine ⟨r.withoutSamples, hread _, hread _, rfl, ?_, r.text_withoutSamples, r.csv_withoutSamples, ?_⟩
  · rw [jsonText, toJson_withoutSamples, jsonText]
  · rintro earlier later h rfl
    have ascending := History.ascending_empty.saveAll earlier
    refine ⟨?_, fun limit room => ⟨_, History.newest_saved r later room, rfl, rfl, rfl, rfl⟩⟩
    rw [History.report?, History.find?_saved ascending]
    exact hread _

/-- A run of a minute and a half. -/
def checkout : RunInfo where
  scenario := "checkout"
  tags := Table.empty
  startedAt := ⟨1772366400, 0⟩
  runDuration := .ofMillis 90_000
  peakUsers := 3
  categories := ["paid"]
  inventory := some ⟨5, 2, 3⟩
  aborted := false

/-- The run is the first in a new log, and reads the same there. -/
theorem checkout_survives : ∃ s, threeLatencies.snapshot? = some s
    ∧ ∃ r, r = build checkout s (evaluate [⟨"latency", "avg<300", ⟨.avg, .less, 300⟩, none⟩] s (.ofMillis 90_000))
      ∧ (∀ x ∈ r.doubles, Json.Exact x)
      ∧ ∃ read, (History.empty.save r).report? 1 = some read ∧ read.text = r.text ∧ read.csv = r.csv := by
  have hall : threeLatencies.snapshot?.any (fun s =>
      (build checkout s (evaluate [⟨"latency", "avg<300", ⟨.avg, .less, 300⟩, none⟩] s (.ofMillis 90_000))).doubles.all
        fun x => decide (Json.Exact x)) = true := by
    rw [Sink.snapshot?_eq, sorted_threeLatencies]
    decide +kernel
  obtain ⟨s, taken, hs⟩ := (Option.any_eq_true _ _).mp hall
  have signed : ∀ i ∈ checkout.inventory, i.Signed := by
    rintro i ⟨⟩
    constructor <;> constructor <;> decide
  have exact : ∀ x ∈ _, Json.Exact x := fun x mem => of_decide_eq_true (List.all_eq_true.mp hs x mem)
  obtain ⟨-, hsurvives⟩ := survives_storage (.built taken checkout signed _ (.ofMillis 90_000))
  obtain ⟨read, -, -, -, -, htext, hcsv, hsaved⟩ := hsurvives exact
  exact ⟨s, taken, _, rfl, exact, read, (hsaved [] [] History.empty rfl).1, htext, hcsv⟩

end Report

end LoadTest
