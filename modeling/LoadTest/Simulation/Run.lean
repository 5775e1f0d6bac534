import LoadTest.Simulation.Step

/-!
# LoadTest.Simulation.Run

A whole run, and what can be seen of it from outside at given times. **The number of steps is limited by
an argument,** since users that neither pause nor wait for answers go on forever at one moment.
-/

namespace LoadTest.Simulation.State

/-- The run up to a time, or up to its end if that comes first, in at most so many steps. -/
def runUntil (setting : Setting) (time : Nat) : Nat → State → State
  | 0, state => state
  | fuel + 1, state =>
      if state.phase.isEnded then state
      else
        match state.choose with
        | .wait =>
            match state.nextDue? with
            | some due =>
                if due ≤ time then runUntil setting time fuel (state.perform setting .wait)
                else state.withCrowd fun crowd => { crowd with now := time }
            | none => state.withCrowd fun crowd => { crowd with now := time }
        | action => runUntil setting time fuel (state.perform setting action)

/-- The run up to its end, in at most so many steps. -/
def run (setting : Setting) : Nat → State → State
  | 0, state => state
  | fuel + 1, state =>
      if state.phase.isEnded then state else run setting fuel (state.perform setting state.choose)

/-- The users shown and the iterations recorded at some times, in order; times after the end of the run
show nothing. The second part is the run at the last of them. -/
def observeAt (setting : Setting) (fuel : Nat) : List Nat → State → List (Nat × UInt64) × State
  | [], state => ([], state)
  | time :: times, state =>
      let state := state.runUntil setting (moment time) fuel
      if state.phase.isEnded then ([], state)
      else
        let (rest, last) := observeAt setting fuel times state
        ((state.shownLive, state.iterations) :: rest, last)

end LoadTest.Simulation.State
