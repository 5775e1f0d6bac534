import LoadTest.Number.Numeral
import LoadTest.Text.Blank

/-!
# LoadTest.Control

Steering a run while it goes on: commands typed by an operator, and the state that the users of the
run look at. **A waiter that found the run paused sleeps until the run is resumed;** what it remembers
is how many times the run had been resumed when it last looked.
-/

namespace LoadTest

/-- What an operator can ask for. -/
inductive Command where
  /-- A number of users that replaces the schedule's. -/
  | ramp (target : Nat)
  | pause
  | resume
  | status
  | stop
  deriving DecidableEq

/-- The words that name a command without a number. -/
def Command.names : List (String × Command) :=
  [("pause", .pause), ("resume", .resume), ("unpause", .resume), ("status", .status),
    ("stats", .status), ("stop", .stop), ("quit", .stop), ("exit", .stop)]

/-- The command of a line. Its first word, in any case, says which; further words are skipped. -/
def Command.ofText? (line : String) : Option Command :=
  match Text.words line with
  | [] => none
  | word :: rest =>
      let name := String.ofList (word.toList.map Numeral.lowerAscii)
      if name = "ramp" ∨ name = "scale" then do
        let number ← rest.head?
        let target ← natBelow? UInt64.size number.toList
        pure (.ramp target)
      else names.lookup name

/-- What the users and the scheduler of a run look at. -/
structure Control where
  paused : Bool := false
  /-- The number of users an operator asked for last. -/
  override : Option Nat := none
  /-- How many times a paused run has been resumed. -/
  resumes : Nat := 0
  deriving DecidableEq, Inhabited

namespace Control

/-- Pauses the run. -/
def pause (control : Control) : Control := { control with paused := true }

/-- Resumes the run; nothing happens unless it is paused. -/
def resume (control : Control) : Control :=
  if control.paused then { control with paused := false, resumes := control.resumes + 1 } else control

/-- Asks for a number of users. -/
def ramp (control : Control) (target : Nat) : Control := { control with override := some target }

end Control

/-- Someone who waits while a run is paused. -/
inductive Waiter where
  /-- Has not looked yet. -/
  | fresh
  /-- Looked when the run was paused and had been resumed so many times. -/
  | asleep (resumes : Nat)
  /-- Found the run not paused. -/
  | done
  deriving DecidableEq

/-- What a waiter is after it had the chance to look. -/
def Waiter.poll (control : Control) : Waiter → Waiter
  | .fresh => if control.paused then .asleep control.resumes else .done
  | .asleep resumes =>
      if control.resumes = resumes then .asleep resumes
      else if control.paused then .asleep control.resumes else .done
  | .done => .done

end LoadTest
