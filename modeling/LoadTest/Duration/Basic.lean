import LoadTest.Number.Layout

/-!
# LoadTest.Duration.Basic

Spans of time in whole nanoseconds. **A duration has fewer than `2 ^ 64` whole seconds**, so sums can
fail to be one; `add?`, `sum?` and `ofSeconds?` say when they do. Thresholds and reports count
milliseconds, as doubles.
-/

namespace LoadTest

/-- Durations have fewer nanoseconds than this. -/
def Duration.limit : Nat := UInt64.size * 1_000_000_000

/-- A span of time. -/
@[ext] structure Duration where
  nanos : Nat
  nanos_lt : nanos < Duration.limit := by decide
  deriving DecidableEq

namespace Duration

/-- No time at all. -/
def zero : Duration := ⟨0, by decide⟩

instance : Inhabited Duration := ⟨zero⟩

/-- The duration of so many nanoseconds, if it is not too long. -/
def ofNanos? (n : Nat) : Option Duration :=
  if h : n < limit then some ⟨n, h⟩ else none

/-- The longest duration of at most so many nanoseconds. -/
def ofNanosCapped (n : Nat) : Duration :=
  ⟨min n (limit - 1), Nat.lt_of_le_of_lt (Nat.min_le_right ..) (by decide)⟩

/-- The duration of so many milliseconds, capped. -/
def ofMillis (n : Nat) : Duration := ofNanosCapped (n * 1_000_000)

/-- The duration of so many seconds, capped. -/
def ofSeconds (n : Nat) : Duration := ofNanosCapped (n * 1_000_000_000)

/-- The whole seconds. -/
def seconds (d : Duration) : Nat := d.nanos / 1_000_000_000

/-- The nanoseconds beyond the whole seconds. -/
def subsecond (d : Duration) : Nat := d.nanos % 1_000_000_000

instance : LE Duration := ⟨fun a b => a.nanos ≤ b.nanos⟩
instance : LT Duration := ⟨fun a b => a.nanos < b.nanos⟩
instance (a b : Duration) : Decidable (a ≤ b) := inferInstanceAs (Decidable (a.nanos ≤ b.nanos))
instance (a b : Duration) : Decidable (a < b) := inferInstanceAs (Decidable (a.nanos < b.nanos))

theorem le_def {a b : Duration} : a ≤ b ↔ a.nanos ≤ b.nanos := Iff.rfl
theorem lt_def {a b : Duration} : a < b ↔ a.nanos < b.nanos := Iff.rfl

/-- The two spans one after the other. -/
def add? (a b : Duration) : Option Duration := ofNanos? (a.nanos + b.nanos)

/-- What is left of `a` after `b`; nothing if `b` is longer. -/
def minus (a b : Duration) : Duration :=
  ⟨a.nanos - b.nanos, Nat.lt_of_le_of_lt (Nat.sub_le ..) a.nanos_lt⟩

/-- The nanoseconds of all spans together. -/
def totalNanos : List Duration → Nat
  | [] => 0
  | d :: ds => d.nanos + totalNanos ds

/-- All spans one after the other. -/
def sum? (ds : List Duration) : Option Duration := ofNanos? (totalNanos ds)

/-- The number in seconds, as a double: whole seconds and the rest are converted apart. -/
def toSeconds (d : Duration) : Binary64 :=
  Binary64.ofNat d.seconds + Binary64.ofNat d.subsecond / Binary64.ofNat 1_000_000_000

/-- The number in milliseconds, as a double. -/
def toMillis (d : Duration) : Binary64 := d.toSeconds * 1000

/-- The duration nearest to so many seconds, a half going to the even nanosecond; none for negative
numbers and for what is no number or too large. -/
def ofSeconds? : Binary64 → Option Duration
  | .finite negative units _ =>
      if negative ∧ units ≠ 0 then none else ofNanos? (roundDiv (units * 1_000_000_000) Binary64.one)
  | _ => none

/-- The nearest duration between two bounds; the upper bound wins if they are out of order. -/
def clamp (d lower upper : Duration) : Duration :=
  if d < lower then lower else if upper < d then upper else d

/-- A whole number of a unit and the thousandths, millionths or billionths beyond it: the fraction has
`places` digits, and zeros at its end are not written. -/
def quantity (whole fraction places : Nat) (unit : String) : String :=
  let digits := Nat.toDigits 10 fraction
  let padded := List.replicate (places - digits.length) '0' ++ digits
  let kept := (padded.reverse.dropWhile (· = '0')).reverse
  toString whole ++ (if kept.isEmpty then "" else "." ++ String.ofList kept) ++ unit

/-- The duration in the largest unit that it holds at least one of. -/
def text (d : Duration) : String :=
  if 0 < d.seconds then quantity d.seconds d.subsecond 9 "s"
  else if 1_000_000 ≤ d.nanos then quantity (d.nanos / 1_000_000) (d.nanos % 1_000_000) 6 "ms"
  else if 1_000 ≤ d.nanos then quantity (d.nanos / 1_000) (d.nanos % 1_000) 3 "µs"
  else quantity d.nanos 0 0 "ns"

end Duration

end LoadTest
