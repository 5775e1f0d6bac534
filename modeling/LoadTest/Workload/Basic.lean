import LoadTest.ConfigError
import LoadTest.Number.Layout
import LoadTest.Number.Word
import LoadTest.Workload.Random

/-!
# LoadTest.Workload.Basic

What the iterations of a run ask for. Either **all users share one target** and each draws its identity
near its own number, so that identities repeat, or **a few hot targets take most of the requests**.
`check` tells which workloads make sense; drawing from any other is defined all the same.
-/

namespace LoadTest

/-- The identities from `start` to `stop`, both included. -/
structure IdRange where
  start : UInt64
  stop : UInt64
  deriving DecidableEq

namespace IdRange

/-- Ranges must not be empty. -/
def check (range : IdRange) : Except ConfigError Unit :=
  if range.stop < range.start then .error (.invalidValue "id range" (.emptyRange range.start range.stop))
  else .ok ()

/-- Whether an identity lies in the range. -/
def contains (range : IdRange) (id : UInt64) : Bool := decide (range.start ≤ id ∧ id ≤ range.stop)

/-- The range as shown to developers. -/
def describe (range : IdRange) : String :=
  "IdRange \x7b start: " ++ toString range.start ++ ", end: " ++ toString range.stop ++ " \x7d"

end IdRange

/-- What one iteration asks for, and in whose name. -/
structure Parameters where
  user? : Option UInt64
  target : UInt64
  deriving DecidableEq

/-- How user identities are drawn: the number of the user modulo `baseModulo`, one more, and a multiple
of `multiplier` by up to `jitterMax`. -/
structure Jitter where
  baseModulo : UInt64 := 10000
  jitterMax : UInt64 := 10
  multiplier : UInt64 := 10000
  deriving DecidableEq

/-- What the iterations of a run ask for. -/
inductive Workload where
  /-- One target for all, with drawn user identities. -/
  | shared (target : UInt64) (jitter : Jitter)
  /-- Hot targets with a probability, else cold ones; no user identity. -/
  | skewed (hot cold : IdRange) (hotProbability : Binary64)
  deriving DecidableEq

namespace Jitter

/-- The largest identity that is drawn, if 64 bits hold it: what a user's own number leaves modulo
`baseModulo` is at most that less one, and one is added to it. -/
def largest? (jitter : Jitter) : Option UInt64 := do
  Word.add? (← Word.mul? jitter.jitterMax jitter.multiplier) jitter.baseModulo

/-- The modulus must be positive, and the largest identity a 64-bit number. -/
def check (jitter : Jitter) : Except ConfigError Unit :=
  if jitter.baseModulo = 0 then .error (.invalidValue "base_modulo" .zero)
  else if jitter.largest?.isSome then .ok ()
  else .error (.invalidValue "user_id"
    (.identityOverflow jitter.baseModulo jitter.jitterMax jitter.multiplier))

/-- The identity of a user for one draw, capped at each step. A modulus of zero counts as one. -/
def identity (jitter : Jitter) (user drawn : UInt64) : UInt64 :=
  Word.addCapped (Word.addCapped (user % max jitter.baseModulo 1) 1)
    (Word.mulCapped drawn jitter.multiplier)

end Jitter

namespace Workload

/-- The hot targets if nothing else is said. -/
def defaultHot : IdRange := ⟨1, 20⟩

/-- The cold targets if nothing else is said. -/
def defaultCold : IdRange := ⟨21, 100⟩

/-- The share of hot targets if nothing else is said. -/
def defaultHotProbability : Binary64 := 0.8

/-- Whether the workload makes sense: its probability is one, its ranges hold identities, and no user
identity overflows. -/
def check : Workload → Except ConfigError Unit
  | .shared _ jitter => jitter.check
  | .skewed hot cold hotProbability =>
      if 0 ≤ hotProbability ∧ hotProbability ≤ 1 then do
        hot.check
        cold.check
      else .error (.invalidValue "hot_probability" (.notProbability hotProbability))

/-- What a user asks for next; none if the range to draw from is empty. -/
def next? (workload : Workload) (user : UInt64) (words : Words) : Option (Parameters × Words) :=
  match workload with
  | .shared target jitter => do
      let (drawn, rest) ← words.inRange? 0 jitter.jitterMax
      pure (⟨some (jitter.identity user drawn), target⟩, rest)
  | .skewed hot cold hotProbability => do
      let (fraction, rest) := words.fraction
      let range := if fraction < hotProbability then hot else cold
      let (target, rest) ← rest.inRange? range.start range.stop
      pure (⟨none, target⟩, rest)

/-- The workload as shown to developers. -/
def describe : Workload → String
  | .shared target jitter =>
      "UniformJitter \x7b target_id: " ++ toString target
        ++ ", base_modulo: " ++ toString jitter.baseModulo
        ++ ", jitter_max: " ++ toString jitter.jitterMax
        ++ ", multiplier: " ++ toString jitter.multiplier ++ " \x7d"
  | .skewed hot cold hotProbability =>
      "Pareto \x7b hot: " ++ hot.describe ++ ", cold: " ++ cold.describe
        ++ ", hot_probability: " ++ hotProbability.taggedText ++ " \x7d"

end Workload

end LoadTest
