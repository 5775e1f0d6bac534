import LoadTest.Number.Numeral

/-!
# LoadTest.Number.Shortest

The fewest decimal digits that read back as a given double. For 1, 2, … 17 digits the two neighbours
of the number on the grid of that many digits are tried; **the first grid with a neighbour that reads
back wins, and of two such neighbours the nearer one.**
-/

namespace LoadTest.Binary64

/-- A decimal number `digits * 10 ^ exponent`. -/
structure Decimal where
  digits : Nat
  exponent : Int
  deriving DecidableEq, Repr

/-- Positive doubles times this power of ten have at least seventeen digits before the point. -/
def gridShift : Nat := 344

/-- The number of digits of a natural number in base ten. -/
def digitCount (n : Nat) : Nat := (Nat.toDigits 10 n).length

/-- Whether a decimal number reads back as the positive double of so many units. -/
def ReadsBack (units : Nat) (d : Decimal) : Prop :=
  (ofDecimal false d.digits d.exponent).units? = some (units : Int)

instance (units : Nat) (d : Decimal) : Decidable (ReadsBack units d) :=
  inferInstanceAs (Decidable (_ = _))

/-- The neighbours of `units` on the grid of multiples of `10 ^ drop`, shifted by `gridShift` places,
the nearer one first. Of two equally near ones the even one comes first. -/
def neighbours (units drop : Nat) : List Decimal :=
  let step := Nat.pow 10 drop * one
  let low := units * Nat.pow 10 gridShift / step
  let rest := 2 * (units * Nat.pow 10 gridShift % step)
  let at' (n : Nat) : Decimal := ⟨n, drop - gridShift⟩
  if rest < step ∨ (rest = step ∧ low % 2 = 0) then [at' low, at' (low + 1)] else [at' (low + 1), at' low]

/-- The decimal number that is exactly so many units. -/
def exactDecimal (units : Nat) : Decimal := ⟨units * Nat.pow 5 1074, -1074⟩

/-- The shortest decimal number that reads back as the positive double of so many units. -/
def shortest (units : Nat) : Decimal :=
  let total := digitCount (units * Nat.pow 10 gridShift / one)
  let found := (List.range 17).findSome? fun i =>
    (neighbours units (total - (i + 1))).find? fun d => decide (ReadsBack units d)
  found.getD (exactDecimal units)

end LoadTest.Binary64
