import LoadTest.Config.File
import LoadTest.Config.Resolve
import LoadTest.Config.Writer
import LoadTest.Control
import LoadTest.History
import LoadTest.Main
import LoadTest.Outcome.Recorder
import LoadTest.Proofs.Address
import LoadTest.Proofs.Config.Acceptance
import LoadTest.Proofs.Config.Spelling
import LoadTest.Proofs.Control
import LoadTest.Proofs.Duration.Parser
import LoadTest.Proofs.History.Session
import LoadTest.Proofs.Metric.Bracket
import LoadTest.Proofs.Outcome.Catalog
import LoadTest.Proofs.Report.CriterionName
import LoadTest.Proofs.Report.Csv
import LoadTest.Proofs.Schedule.Line
import LoadTest.Proofs.Simulation.Conduct
import LoadTest.Proofs.Simulation.EarlyEnd
import LoadTest.Proofs.Simulation.Requests
import LoadTest.Proofs.Simulation.Shutdown
import LoadTest.Proofs.Simulation.Teardown
import LoadTest.Proofs.Simulation.Timetable
import LoadTest.Proofs.Simulation.Tracking
import LoadTest.Proofs.Threshold.Canonical
import LoadTest.Proofs.Threshold.Lasting
import LoadTest.Proofs.Threshold.Observed
import LoadTest.Proofs.Threshold.Stored
import LoadTest.Proofs.Workload.ThinkTime
import LoadTest.Report.Csv
import LoadTest.Report.Text
import LoadTest.Simulation.Run
