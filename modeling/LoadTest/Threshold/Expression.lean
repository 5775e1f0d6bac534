import LoadTest.Metric.Series
import LoadTest.Text.Blank

/-!
# LoadTest.Threshold.Expression

Pass or fail criteria: an aggregate of a series, a comparison and a bound, such as `p(95)<300`.
Blanks may stand around the aggregate and the bound. **`Expression.text` is the canonical form,** with
`==` for equality, `p(…)` for percentiles and the shortest numerals; `Expression.ofText?` reads it back.
-/

namespace LoadTest.Threshold

open LoadTest.Metric

/-- What is computed from a series. -/
inductive Aggregate where
  | percentile (p : Binary64)
  | avg
  | min
  | max
  | med
  | count
  | rate
  deriving DecidableEq

/-- How an observed value is held against a bound. -/
inductive Comparison where
  | less
  | atMost
  | greater
  | atLeast
  | equal
  deriving DecidableEq, Repr

/-- A criterion on the values of one series. -/
structure Expression where
  aggregate : Aggregate
  comparison : Comparison
  bound : Binary64
  deriving DecidableEq

/-- What can be wrong with a criterion. -/
inductive Fault where
  | noComparison
  | unknownAggregate (text : String)
  | invalidPercentile (text : String)
  | percentileOutOfRange (p : Binary64)
  | invalidBound (text : String)
  | boundNotFinite (text : String)
  /-- The aggregate cannot be computed for a series of this kind. -/
  | notApplicable (aggregate : Aggregate) (kind : Kind)
  deriving DecidableEq

/-! ### Aggregates -/

namespace Aggregate

/-- The canonical text. -/
def text : Aggregate → String
  | .percentile p => "p(" ++ p.plainText ++ ")"
  | .avg => "avg"
  | .min => "min"
  | .max => "max"
  | .med => "med"
  | .count => "count"
  | .rate => "rate"

/-- The aggregates that are a word of their own. -/
def named : List Aggregate := [.avg, .min, .max, .med, .count, .rate]

/-- What stands for the percentage in `p(95)` or `p95`. -/
def percentText? (cs : List Char) : Option (List Char) :=
  let inParens := (Text.dropHead? ['p', '('] cs).bind (Text.dropTail? [')'])
  inParens.or (Text.dropHead? ['p'] cs)

/-- The aggregate that a text names. -/
def ofText? (cs : List Char) : Except Fault Aggregate :=
  let cs := Text.trimList cs
  let s := String.ofList cs
  match named.find? fun aggregate => aggregate.text == s with
  | some aggregate => .ok aggregate
  | none =>
      match percentText? cs with
      | none => .error (.unknownAggregate s)
      | some digits =>
          match Binary64.ofList? (Text.trimList digits) with
          | none => .error (.invalidPercentile s)
          | some p => if 0 ≤ p ∧ p ≤ 100 then .ok (.percentile p) else .error (.percentileOutOfRange p)

/-- Whether the aggregate can be computed for a series of a kind. -/
def appliesTo (aggregate : Aggregate) : Kind → Bool
  | .trend => aggregate ≠ .rate
  | .rate => aggregate = .rate
  | .counter => aggregate = .count ∨ aggregate = .rate

end Aggregate

/-! ### Comparisons -/

namespace Comparison

/-- Two values nearer to each other than this are equal: the step from one to the next double. -/
def tolerance : Binary64 := Binary64.ofQuotient false 1 (1 <<< 52)

/-- Whether an observed value meets a bound. -/
def holds (comparison : Comparison) (observed bound : Binary64) : Bool :=
  match comparison with
  | .less => observed.lt bound
  | .atMost => observed.le bound
  | .greater => bound.lt observed
  | .atLeast => bound.le observed
  | .equal => (observed - bound).abs.lt tolerance

/-- The canonical sign. -/
def text : Comparison → String
  | .less => "<"
  | .atMost => "<="
  | .greater => ">"
  | .atLeast => ">="
  | .equal => "=="

/-- The characters that begin a comparison. -/
def isSign (c : Char) : Bool := c == '<' || c == '>' || c == '='

/-- The comparison at the front, the longest that fits, and what follows it. -/
def split? : List Char → Option (Comparison × List Char)
  | '<' :: '=' :: rest => some (.atMost, rest)
  | '>' :: '=' :: rest => some (.atLeast, rest)
  | '=' :: '=' :: rest => some (.equal, rest)
  | '<' :: rest => some (.less, rest)
  | '>' :: rest => some (.greater, rest)
  | '=' :: rest => some (.equal, rest)
  | _ => none

end Comparison

/-! ### Criteria -/

namespace Expression

/-- The canonical text. -/
def text (e : Expression) : String := e.aggregate.text ++ e.comparison.text ++ e.bound.plainText

/-- The criterion that a text denotes. The first comparison sign ends the aggregate. -/
def ofText? (s : String) : Except Fault Expression :=
  let cs := s.toList
  match Comparison.split? (cs.dropWhile fun c => !Comparison.isSign c) with
  | none => .error .noComparison
  | some (comparison, rest) => do
      let aggregate ← Aggregate.ofText? (cs.takeWhile fun c => !Comparison.isSign c)
      let digits := Text.trimList rest
      match Binary64.ofList? digits with
      | none => .error (.invalidBound (String.ofList digits))
      | some bound =>
          if bound.isFinite then .ok ⟨aggregate, comparison, bound⟩
          else .error (.boundNotFinite (String.ofList digits))

end Expression

/-- The fault in words. -/
def Fault.message : Fault → String
  | .noComparison => "missing comparison operator"
  | .unknownAggregate text => "unknown aggregate `" ++ text ++ "`"
  | .invalidPercentile text => "invalid percentile `" ++ text ++ "`"
  | .percentileOutOfRange p => "percentile " ++ p.plainText ++ " out of range 0..=100"
  | .invalidBound text => "invalid bound `" ++ text ++ "`"
  | .boundNotFinite text => "bound `" ++ text ++ "` is not finite"
  | .notApplicable aggregate kind =>
      "`" ++ aggregate.text ++ "` is not valid for a " ++ kind.title ++ " metric"

end LoadTest.Threshold
