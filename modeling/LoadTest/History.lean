import LoadTest.Directory
import LoadTest.Report.Basic

/-!
# LoadTest.History

The log of finished runs. **Runs are only ever added, under ascending numbers,** and listed newest
first. A run keeps its report as JSON text; its report is read back from there.
-/

namespace LoadTest

/-- A run in the log. -/
structure Run where
  id : Nat
  startTime : String
  scenario : String
  passed : Bool
  summary : String
  deriving DecidableEq

/-- The runs saved so far, oldest first. -/
structure History where
  runs : List Run

namespace History

/-- A log without runs. -/
def empty : History := ⟨[]⟩

/-- The number of the next run. -/
def nextId (h : History) : Nat := ((h.runs.getLast?.map (·.id)).getD 0) + 1

/-- The log with one more run. -/
def save (h : History) (report : Report) : History :=
  ⟨h.runs ++ [⟨h.nextId, report.startedAt, report.scenario, report.passed, report.toJson.compact⟩]⟩

/-- The newest runs, newest first; at most so many if the limit is one of 63 bits, and all of them if
it is larger. -/
def newest (h : History) (limit : UInt64) : List Run :=
  if limit.toNat < signedLimit then h.runs.reverse.take limit.toNat else h.runs.reverse

/-- The run of a number. -/
def find? (h : History) (id : Int) : Option Run := h.runs.find? fun run => (run.id : Int) = id

/-- The report of the run of a number. -/
def report? (h : History) (id : Int) : Option Report := do Report.ofText? (← h.find? id).summary

/-- What is said of a run that was not saved. -/
def missingMessage (id : Int) : String := "no run with id " ++ toString id

/-- What is said of a log that cannot be opened. -/
def closedMessage (path : String) : String := "failed to open history database " ++ path

/-- Whether a log can be kept under a path: in memory, in a file without a name, or in a file of the
working directory. -/
def canOpen (path : String) : Bool := path == ":memory:" || path == "" || (Directory.name? path).isSome

/-! ### Files -/

/-- The log as a text: the report of each run on a line. -/
def toText (h : History) : String := String.join (h.runs.map fun run => run.summary ++ "\n")

/-- The log that a text holds. -/
def ofText? (text : String) : Option History := do
  let lines := (text.splitOn "\n").filter (· ≠ "")
  let reports ← lines.mapM Report.ofText?
  pure (reports.foldl save empty)

end History

end LoadTest
