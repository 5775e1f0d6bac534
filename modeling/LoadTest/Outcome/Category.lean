/-!
# LoadTest.Outcome.Category

What an exchange meant for the business that is tested. **An outcome that the target is expected to give
is no error,** whatever its status.
-/

namespace LoadTest.Outcome

/-- What an exchange meant. -/
inductive Category where
  | queued
  | duplicate
  | soldOut
  | found
  | unexpectedStatus
  | transportError
  | parseError
  deriving DecidableEq

namespace Category

/-- The category as names of series begin. -/
def name : Category → String
  | .queued => "queued"
  | .duplicate => "duplicate"
  | .soldOut => "sold_out"
  | .found => "found"
  | .unexpectedStatus => "unexpected_status"
  | .transportError => "transport_error"
  | .parseError => "parse_error"

/-- Whether the exchange went wrong. -/
def isError : Category → Bool
  | .unexpectedStatus | .transportError | .parseError => true
  | .queued | .duplicate | .soldOut | .found => false

/-- The counter of the exchanges of the category. -/
def counterName (category : Category) : String := category.name ++ "_total"

/-- The share of the category among all exchanges. -/
def rateName (category : Category) : String := category.name ++ "_responses"

end Category

end LoadTest.Outcome
