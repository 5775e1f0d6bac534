/-!
# LoadTest.Number.Binary64

Double-precision numbers in exact arithmetic.

**Every finite double is a whole number of units.** The unit is the least positive double,
`2 ^ -1074`, so a finite double is a sign and a natural number whose binary digits, from the first
one set to the last one set, span at most 53 places.

* `Binary64.round` is the one place where precision is lost: it takes a quotient of natural numbers,
  in units, to the nearest representable number, a half going to the even neighbour.
* Addition, multiplication and division are the exact result followed by `round`, so each law of
  theirs is a law of `round`.
* Order on finite doubles is order on signed unit counts; `nan` compares false with everything.
-/

namespace LoadTest

/-- The quotient `num / den` rounded to a whole number, a half going to the even neighbour. -/
def roundDiv (num den : Nat) : Nat :=
  if den < 2 * (num % den) ∨ (2 * (num % den) = den ∧ num / den % 2 = 1) then num / den + 1
  else num / den

theorem roundDiv_le (num den : Nat) : roundDiv num den ≤ num / den + 1 := by
  unfold roundDiv; split <;> omega

theorem le_roundDiv (num den : Nat) : num / den ≤ roundDiv num den := by
  unfold roundDiv; split <;> omega

/-- A whole multiple of the denominator loses nothing. -/
theorem roundDiv_mul_left (num : Nat) {den : Nat} (h : 0 < den) : roundDiv (num * den) den = num := by
  simp [roundDiv, Nat.mul_div_cancel _ h, Nat.mul_mod_left, Nat.ne_of_lt h]

namespace Binary64

/-- The number of units in one. -/
def one : Nat := 1 <<< 1074

/-- Finite magnitudes stay below this number of units. -/
def limit : Nat := 1 <<< 2098

/-- The unit counts of finite doubles: a 53-bit number shifted to the left. -/
def Representable (units : Nat) : Prop :=
  units < limit ∧ ∃ m s, m < 1 <<< 53 ∧ units = m <<< s

theorem one_shiftLeft_pos (s : Nat) : 0 < 1 <<< s := by
  rw [Nat.shiftLeft_eq, Nat.one_mul]
  exact Nat.two_pow_pos s

theorem limit_pos : 0 < limit := one_shiftLeft_pos _

theorem representable_zero : Representable 0 := ⟨limit_pos, 0, 0, by decide, rfl⟩

/-- The weight of the last place kept of a magnitude whose whole part is `units`: one unit as long
as 53 bits suffice. -/
def lastPlace (units : Nat) : Nat := 1 <<< (units.log2 - 52)

/-- The quotient `num / den`, in units, rounded to 53 binary digits without regard to the limit. -/
def roundUnits (num den : Nat) : Nat :=
  roundDiv num (den * lastPlace (num / den)) * lastPlace (num / den)

theorem roundUnits_eq_shift (num den : Nat) :
    ∃ m s, m < 1 <<< 53 ∧ roundUnits num den = m <<< s := by
  simp only [roundUnits, lastPlace, Nat.shiftLeft_eq, Nat.one_mul]
  generalize hs : (num / den).log2 - 52 = s
  have hq : num / (den * 2 ^ s) < 2 ^ 53 := by
    rw [← Nat.div_div_eq_div_mul, Nat.div_lt_iff_lt_mul (Nat.two_pow_pos s), ← Nat.pow_add]
    rcases Nat.eq_zero_or_pos (num / den) with h0 | h0
    · rw [h0]; exact Nat.two_pow_pos _
    · exact Nat.lt_of_lt_of_le Nat.lt_log2_self (Nat.pow_le_pow_right (by decide) (by omega))
  have hr := roundDiv_le num (den * 2 ^ s)
  by_cases he : roundDiv num (den * 2 ^ s) < 2 ^ 53
  · exact ⟨_, s, he, rfl⟩
  · refine ⟨2 ^ 52, s + 1, by decide, ?_⟩
    have : roundDiv num (den * 2 ^ s) = 2 ^ 52 * 2 := by omega
    rw [this, Nat.mul_assoc, Nat.mul_comm 2, ← Nat.pow_succ]

end Binary64

/-- A double-precision number. -/
inductive Binary64 where
  /-- Not a number. -/
  | nan
  /-- Positive or negative infinity. -/
  | infinite (negative : Bool)
  /-- A sign and a magnitude in units; zero keeps its sign. -/
  | finite (negative : Bool) (units : Nat) (representable : Binary64.Representable units)
  deriving DecidableEq

namespace Binary64

/-- The quotient `num / den`, in units and with a sign, to the nearest double. A magnitude that
rounds past the largest finite one is infinite. -/
def round (negative : Bool) (num den : Nat) : Binary64 :=
  if h : roundUnits num den < limit then
    .finite negative (roundUnits num den) ⟨h, roundUnits_eq_shift num den⟩
  else .infinite negative

/-- Zero with a sign. -/
def zero (negative : Bool) : Binary64 := .finite negative 0 representable_zero

instance : Inhabited Binary64 := ⟨zero false⟩

/-! ### Conversions -/

/-- The double nearest to the quotient `num / den`. -/
def ofQuotient (negative : Bool) (num den : Nat) : Binary64 := round negative (num * one) den

/-- The double nearest to a natural number. -/
def ofNat (n : Nat) : Binary64 := ofQuotient false n 1

instance (n : Nat) : OfNat Binary64 n := ⟨ofNat n⟩

/-- The double nearest to `m * 10 ^ e`, signed. Exponents beyond every double are cut off first, so
that no power of ten is computed that could not matter. -/
def ofDecimal (negative : Bool) (m : Nat) (e : Int) : Binary64 :=
  if m = 0 then zero negative
  else
    let digits := m.log2 / 3 + 1
    if 400 < e then .infinite negative
    else if e + digits < -400 then zero negative
    else if 0 ≤ e then ofQuotient negative (m * Nat.pow 10 e.toNat) 1
    else ofQuotient negative m (Nat.pow 10 (-e).toNat)

/-- Decimal literals denote the double nearest to them. -/
instance : OfScientific Binary64 where
  ofScientific m s e := ofDecimal false m (if s then -(e : Int) else (e : Int))

/-- The signed number of units of a finite double. -/
def units? : Binary64 → Option Int
  | .finite negative units _ => some (if negative then -(units : Int) else (units : Int))
  | _ => none

/-- Neither infinite nor `nan`. -/
def isFinite : Binary64 → Bool
  | .finite .. => true
  | _ => false

/-- Whether the number is `nan`. -/
def isNaN : Binary64 → Bool
  | .nan => true
  | _ => false

/-! ### Arithmetic -/

/-- The number with the opposite sign. -/
protected def neg : Binary64 → Binary64
  | .nan => .nan
  | .infinite negative => .infinite (!negative)
  | .finite negative units h => .finite (!negative) units h

instance : Neg Binary64 := ⟨Binary64.neg⟩

/-- The number without its sign. -/
def abs : Binary64 → Binary64
  | .nan => .nan
  | .infinite _ => .infinite false
  | .finite _ units h => .finite false units h

/-- The double nearest to a signed number of units; `negativeZero` is the sign of an exact zero. -/
def ofUnits (negativeZero : Bool) (units : Int) : Binary64 :=
  round (if units = 0 then negativeZero else decide (units < 0)) units.natAbs 1

/-- The exact sum, rounded. Opposite numbers give positive zero. -/
protected def add : Binary64 → Binary64 → Binary64
  | .nan, _ => .nan
  | _, .nan => .nan
  | .infinite a, .infinite b => if a = b then .infinite a else .nan
  | .infinite a, .finite .. => .infinite a
  | .finite .., .infinite b => .infinite b
  | .finite a m _, .finite b n _ =>
      ofUnits (a && b) ((if a then -(m : Int) else (m : Int)) + (if b then -(n : Int) else (n : Int)))

instance : Add Binary64 := ⟨Binary64.add⟩
instance : Sub Binary64 := ⟨fun x y => x + -y⟩

/-- The exact product, rounded. -/
protected def mul : Binary64 → Binary64 → Binary64
  | .nan, _ => .nan
  | _, .nan => .nan
  | .infinite a, .infinite b => .infinite (a ^^ b)
  | .infinite a, .finite b n _ => if n = 0 then .nan else .infinite (a ^^ b)
  | .finite a m _, .infinite b => if m = 0 then .nan else .infinite (a ^^ b)
  | .finite a m _, .finite b n _ => round (a ^^ b) (m * n) one

instance : Mul Binary64 := ⟨Binary64.mul⟩

/-- The exact quotient, rounded. A nonzero number over zero is infinite. -/
protected def div : Binary64 → Binary64 → Binary64
  | .nan, _ => .nan
  | _, .nan => .nan
  | .infinite _, .infinite _ => .nan
  | .infinite a, .finite b _ _ => .infinite (a ^^ b)
  | .finite a _ _, .infinite b => zero (a ^^ b)
  | .finite a m _, .finite b n _ =>
      if n = 0 then (if m = 0 then .nan else .infinite (a ^^ b)) else round (a ^^ b) (m * one) n

instance : Div Binary64 := ⟨Binary64.div⟩

/-! ### Order -/

/-- Where a number stands on the line: minus infinity, a count of units, or plus infinity. -/
inductive Position where
  | least
  | at (units : Int)
  | greatest
  deriving DecidableEq

/-- `nan` stands nowhere; the two zeros stand at one place. -/
def position? : Binary64 → Option Position
  | .nan => none
  | .infinite negative => some (if negative then .least else .greatest)
  | .finite negative units _ => some (.at (if negative then -(units : Int) else (units : Int)))

/-- Order along the line. -/
def Position.le : Position → Position → Bool
  | .least, _ => true
  | _, .greatest => true
  | .at a, .at b => decide (a ≤ b)
  | _, _ => false

/-- At most; false beside `nan`. -/
def le (x y : Binary64) : Bool :=
  match x.position?, y.position? with
  | some p, some q => p.le q
  | _, _ => false

/-- Less; false beside `nan`. -/
def lt (x y : Binary64) : Bool :=
  match x.position?, y.position? with
  | some p, some q => !q.le p
  | _, _ => false

/-- Numerically equal: the two zeros are, `nan` is equal to nothing. -/
def eq (x y : Binary64) : Bool := x.le y && y.le x

instance : LE Binary64 := ⟨fun x y => x.le y = true⟩
instance : LT Binary64 := ⟨fun x y => x.lt y = true⟩
instance (x y : Binary64) : Decidable (x ≤ y) := inferInstanceAs (Decidable (x.le y = true))
instance (x y : Binary64) : Decidable (x < y) := inferInstanceAs (Decidable (x.lt y = true))

/-! ### Whole parts -/

/-- Cut to a natural number below `bound`: fractions are dropped, `nan` and negative numbers become
zero, and whatever lies beyond becomes the largest such number. -/
def toNatBelow (bound : Nat) : Binary64 → Nat
  | .nan => 0
  | .infinite negative => if negative then 0 else bound - 1
  | .finite negative units _ => if negative then 0 else min (units / one) (bound - 1)

/-- The least natural number below `bound` that is not smaller than the number, in the same sense as
`toNatBelow`. -/
def ceilBelow (bound : Nat) : Binary64 → Nat
  | .nan => 0
  | .infinite negative => if negative then 0 else bound - 1
  | .finite negative units _ => if negative then 0 else min ((units + (one - 1)) / one) (bound - 1)

end Binary64

end LoadTest
