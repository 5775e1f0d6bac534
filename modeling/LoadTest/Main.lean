import LoadTest.Program

/-!
# LoadTest.Main

The command line of the program. It reads the files that the program needs, lets it work on them, and
writes what it leaves behind. **There is no network here:** every request of a run fails to connect.
-/

namespace LoadTest.Main

/-- The variables of the environment that the program knows. -/
def variableNames : List String := ["BASE_URL", "COUPON_ID"]

/-- A variable that is set, with its value. -/
def readVariable (name : String) : IO (Option (String × String)) := do
  return (← IO.getEnv name).map fun value => (name, value)

/-- A file that is there, with its text. -/
def readFile (path : String) : IO (Option (String × String)) := do
  match Directory.name? path with
  | none => return none
  | some name =>
      try
        return some (name, ← IO.FS.readFile name)
      catch _ => return none

/-- Writes the files that have changed. -/
def writeFiles (before after : Directory) : IO Unit :=
  after.files.entries.forM fun (name, text) => do
    if before.files.find? name ≠ some text then IO.FS.writeFile name text

end LoadTest.Main

open LoadTest in
/-- The program. -/
def main (arguments : List String) : IO UInt32 := do
  let environment ← Main.variableNames.filterMapM Main.readVariable
  let files ← (Program.filesRead environment arguments).filterMapM Main.readFile
  let directory : Directory := ⟨Table.ofList files⟩
  let ending := Program.execute Simulation.Target.unreachable environment arguments directory
  Main.writeFiles directory ending.session.directory
  (← IO.getStdout).putStr ending.session.out
  (← IO.getStderr).putStr ending.session.err
  return UInt32.ofNat ending.code
