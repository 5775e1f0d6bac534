import LoadTest.CommandLine.Basic
import LoadTest.Config.File
import LoadTest.Config.Resolve
import LoadTest.Config.Schema
import LoadTest.Directory
import LoadTest.History
import LoadTest.Report.Csv
import LoadTest.Report.Text
import LoadTest.Simulation.Run

/-!
# LoadTest.Program

What the program does with a command line: what it prints, which files it leaves behind, and the code it
ends with. **A run that finished but did not meet its thresholds ends with a code of its own,** so that
scripts can tell it from a run that could not be made. The target of runs is up to whoever calls.
-/

namespace LoadTest

open CommandLine

/-- The program while it works. -/
structure Session where
  directory : Directory
  /-- What has been printed. -/
  out : String := ""
  /-- What has been said of errors. -/
  err : String := ""
  deriving Inhabited

/-- The program after its end. -/
structure Ending where
  code : Nat
  session : Session
  deriving Inhabited

namespace Session

/-- Prints a line. -/
def print (session : Session) (line : String) : Session :=
  { session with out := session.out ++ line ++ "\n" }

/-- Says a line about an error. -/
def complain (session : Session) (line : String) : Session :=
  { session with err := session.err ++ line ++ "\n" }

/-- Ends well. -/
def succeed (session : Session) : Ending := ⟨0, session⟩

/-- Ends with an error. -/
def fail (session : Session) (message : String) : Ending := ⟨1, session.complain ("Error: " ++ message)⟩

end Session

namespace Program

/-- The name and version of the program. -/
def version : String := "barrage 0.1.0"

/-- The code of a run whose thresholds were not met. -/
def thresholdsFailed : Nat := 99

/-- The code for command lines that are not understood. -/
def usageError : Nat := 2

/-- How many steps of the simulation a run may take. -/
def stepLimit : Nat := 1_000_000_000

/-- The configuration that a command line names. -/
def loadConfig (session : Session) (path : String) (overrides : Config.Overrides) :
    Except Config.LoadError Config := do
  let content := (session.directory.read? path).map fun text => text.toUTF8.toList
  let config ← Config.load path content
  pure (config.override overrides)

/-! ### Runs -/

/-- What is printed when commands are read during a run. -/
def interactiveBanner : String :=
  "Interactive mode enabled. Commands: ramp <N>, pause, resume, status, stop\n"
    ++ "   Type commands and press Enter.\n"

/-- What came of a run, or why it could not be made. -/
def perform (target : Simulation.Target) (plan : Plan) : Except String Report :=
  let setting : Simulation.Setting := { plan, target }
  match ((Simulation.State.start setting [] none).run setting stepLimit).outcome? with
  | some (.reported report) => .ok report
  | some (.unhealthy error) => .error error.message
  | some (.missingSeries _) => .error "metric sink is missing scenario series"
  | some .overflowed => .error "the figures of the run cannot be summed up"
  | none => .error "the run did not end"

/-- Writes the summary as JSON; the program cannot go on without it. -/
def exportJson (report : Report) (path : Option String) (session : Session) : Except Ending Session :=
  match path with
  | none => .ok session
  | some path =>
      match session.directory.write? path report.jsonText with
      | some directory =>
          .ok ({ session with directory }.print ("Summary exported to " ++ Text.quoted path))
      | none => .error (session.fail ("failed to write " ++ path))

/-- Writes the summary as a table; the program goes on without it. -/
def exportCsv (report : Report) (path : Option String) (session : Session) : Session :=
  match path with
  | none => session
  | some path =>
      match session.directory.write? path report.csv with
      | some directory => { session with directory }.print ("CSV exported to " ++ Text.quoted path)
      | none => session.complain "CSV export failed: No such file or directory (os error 2)"

/-- The log under a path; one that is not there yet is empty. -/
def openHistory? (session : Session) (path : String) : Option History :=
  if History.canOpen path then History.ofText? ((session.directory.read? path).getD "") else none

/-- The session with a log under a path. A log in memory or without a name is not kept. -/
def keepHistory (session : Session) (path : String) (history : History) : Session :=
  match session.directory.write? path history.toText with
  | some directory => if path = ":memory:" then session else { session with directory }
  | none => session

/-- Records the run in a log; the program goes on without it. -/
def saveHistory (report : Report) (path : Option String) (session : Session) : Session :=
  match path with
  | none => session
  | some path =>
      match openHistory? session path with
      | some history =>
          (keepHistory session path (history.save report)).print
            ("Run saved to history as #" ++ toString history.nextId ++ " (" ++ path ++ ")")
      | none => session.complain ("Failed to save run history: " ++ History.closedMessage path)

/-- Makes a run and reports on it. -/
def run (target : Simulation.Target) (options : RunOptions) (session : Session) : Ending :=
  match loadConfig session options.config options.overrides with
  | .error error => session.fail (error.message options.config)
  | .ok config =>
      match config.resolve with
      | .error error => session.fail error.message
      | .ok plan =>
          let session := if options.interactive then session.print interactiveBanner else session
          match perform target plan with
          | .error message => session.fail message
          | .ok report =>
              let session := session.print (if options.json then report.jsonText else report.text)
              match exportJson report options.exportJson session with
              | .error ending => ending
              | .ok session =>
                  let session := exportCsv report options.exportCsv session
                  let session := saveHistory report options.history session
                  ⟨if report.passed then 0 else thresholdsFailed, session⟩

/-! ### Validation -/

/-- What is shown of a plan. -/
def planLines (plan : Plan) : List String :=
  let schedule := plan.schedule
  ["scenario: " ++ plan.scenario.name,
    "base_url: " ++ plan.baseUrl,
    "stages: " ++ toString schedule.stages.length ++ " stage(s), " ++ schedule.total.text
      ++ " total, peak " ++ toString schedule.maxTarget ++ " VUs",
    "think time: " ++ plan.thinkTime.min.text ++ " - " ++ plan.thinkTime.max.text]
    ++ (plan.thresholds.map fun spec => "threshold: " ++ spec.metric ++ ": " ++ spec.source)
    ++ (plan.healthCheck.map fun path => "health check: " ++ path).toList
    ++ (plan.inventory.map fun probe => "inventory: " ++ probe.path ++ " (" ++ probe.field ++ ")").toList

/-- Checks a configuration without making a run. -/
def validate (path : String) (overrides : Config.Overrides) (session : Session) : Ending :=
  let session := session.print ("Validating " ++ path ++ "...")
  match loadConfig session path overrides with
  | .error error =>
      (session.print ("  ✗ Config file invalid: " ++ error.message path)).fail (error.message path)
  | .ok config =>
      let session := session.print "  ✓ Config file parsed"
      match config.resolve with
      | .error error =>
          (session.print ("  ✗ Validation failed: " ++ error.message)).fail error.message
      | .ok plan =>
          let session := session.print "  ✓ Configuration valid"
          ((planLines plan).foldl (fun session line => session.print ("    " ++ line)) session).succeed

/-! ### Schema and history -/

/-- Prints the schema of configurations, or writes it to a file. -/
def schema (output : Option String) (session : Session) : Ending :=
  match output with
  | none => (session.print Config.Schema.text).succeed
  | some path =>
      match session.directory.write? path Config.Schema.text with
      | some directory =>
          ({ session with directory }.print ("JSON Schema written to " ++ Text.quoted path)).succeed
      | none => session.fail "No such file or directory (os error 2)"

/-- A text with blanks behind it up to a width. -/
def padded (width : Nat) (text : String) : String :=
  text ++ String.ofList (List.replicate (width - text.length) ' ')

/-- A line of the list of runs. -/
def runLine (id started scenario result : String) : String :=
  padded 6 id ++ " " ++ padded 32 started ++ " " ++ padded 20 scenario ++ " " ++ result

/-- Lists the runs of a log, the newest first. -/
def listRuns (path : String) (runs : List Run) (session : Session) : Session :=
  if runs.isEmpty then session.print ("No runs recorded in " ++ path)
  else
    runs.foldl (fun session run => session.print
        (runLine (toString run.id) run.startTime run.scenario (if run.passed then "PASSED" else "FAILED")))
      (session.print (runLine "ID" "STARTED" "SCENARIO" "RESULT"))

/-- Shows a run of a log, or lists its newest ones. -/
def history (id : Option Int) (path : String) (limit : UInt64) (session : Session) : Ending :=
  match openHistory? session path with
  | none => session.fail (History.closedMessage path)
  | some history =>
      let session := keepHistory session path history
      match id with
      | none => (listRuns path (history.newest limit) session).succeed
      | some id =>
          match history.report? id with
          | some report => (session.print report.text).succeed
          | none => session.fail (History.missingMessage id)

/-! ### The whole -/

/-- What is done about a command line that is not followed. -/
def refuse (refusal : Refusal) (session : Session) : Ending :=
  match refusal with
  | .version => (session.print version).succeed
  | .help => session.succeed
  | _ => ⟨usageError, session.complain "error: the command line is not understood"⟩

/-- The files that a command line has the program read, if they are there. -/
def filesRead (environment : List (String × String)) (arguments : List String) : List String :=
  match parse environment arguments with
  | .ok (.run options) => options.config :: options.history.toList
  | .ok (.validate config _) => [config]
  | .ok (.history _ database _) => [database]
  | _ => []

/-- What the program does with a command line, in an environment and a directory. -/
def execute (target : Simulation.Target) (environment : List (String × String)) (arguments : List String)
    (directory : Directory) : Ending :=
  let session : Session := { directory }
  match parse environment arguments with
  | .error refusal => refuse refusal session
  | .ok (.run options) => run target options session
  | .ok (.validate config overrides) => validate config overrides session
  | .ok (.schema output) => schema output session
  | .ok (.history id database limit) => history id database limit session
  | .ok (.completion _) => session.succeed

end Program

end LoadTest
