import LoadTest.Threshold.Expression

/-!
# LoadTest.ConfigError

Why a configuration cannot be used. **Each error is a cause with what it is about;** the wording is in
`ConfigError.message` alone.
-/

namespace LoadTest

/-- What can be wrong with a list of stages. -/
inductive StagesFault where
  | empty
  | tooLong
  | negativeTarget (index : Nat) (target : Int)
  deriving DecidableEq

/-- What can be wrong with a value that has the right form. -/
inductive ValueFault where
  /-- A quantity that must be positive is zero. -/
  | zero
  /-- Repetitions are limited to none. -/
  | noRepetition
  /-- A range that ends before it starts. -/
  | emptyRange (start stop : UInt64)
  /-- A probability outside of 0 to 1. -/
  | notProbability (p : Binary64)
  /-- Identities that could pass the largest 64-bit number. -/
  | identityOverflow (baseModulo jitterMax multiplier : UInt64)
  /-- A lower bound above its upper bound. -/
  | minAboveMax (min max : Duration)
  /-- An address that names no web scheme. -/
  | notWebAddress (url : String)
  deriving DecidableEq

/-- Why a configuration cannot be used. -/
inductive ConfigError where
  | missing (setting : String)
  | invalidDuration (field value : String)
  | invalidStages (fault : StagesFault)
  | invalidThreshold (metric expression : String) (fault : Threshold.Fault)
  | unknownMetric (name : String)
  | invalidValue (field : String) (fault : ValueFault)
  deriving DecidableEq

/-- The fault in words. -/
def StagesFault.message : StagesFault → String
  | .empty => "at least one stage is required"
  | .tooLong => "total stage duration is too large"
  | .negativeTarget index target =>
      "stages[" ++ toString index ++ "].target must not be negative (got " ++ toString target ++ ")"

/-- The fault in words. -/
def ValueFault.message : ValueFault → String
  | .zero => "must be greater than zero"
  | .noRepetition => "must be at least 1"
  | .emptyRange start stop => "start " ++ toString start ++ " is greater than end " ++ toString stop
  | .notProbability p => p.plainText ++ " is outside 0..=1"
  | .identityOverflow baseModulo jitterMax multiplier =>
      "base_modulo " ++ toString baseModulo ++ " + jitter_max " ++ toString jitterMax
        ++ " * multiplier " ++ toString multiplier ++ " overflows a u64 user id"
  | .minAboveMax min max => "min " ++ min.text ++ " is greater than max " ++ max.text
  | .notWebAddress url => "'" ++ url ++ "' must start with http:// or https://"

/-- The error in words. -/
def ConfigError.message : ConfigError → String
  | .missing setting => "missing required setting `" ++ setting ++ "`"
  | .invalidDuration field value => "invalid duration '" ++ value ++ "' for `" ++ field ++ "`"
  | .invalidStages fault => "invalid stages: " ++ fault.message
  | .invalidThreshold metric expression fault =>
      "invalid threshold '" ++ expression ++ "' on `" ++ metric ++ "`: " ++ fault.message
  | .unknownMetric name => "unknown metric `" ++ name ++ "`"
  | .invalidValue field fault => "invalid value for `" ++ field ++ "`: " ++ fault.message

end LoadTest
