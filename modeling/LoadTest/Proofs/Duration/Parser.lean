import LoadTest.Duration.Parser
import LoadTest.Proofs.Number.Closeness
import LoadTest.Proofs.Number.Grammar

/-!
# LoadTest.Proofs.Duration.Parser

What written durations denote. A text is split into its numeral and its unit in one way only, since the letters of the
units are in no numeral (`splitUnit_append`). What the two come to passes three roundings, of the numeral, of the unit,
which for milliseconds is no double, and of their product (`close_productUnits`). **Below `2 ^ 20` seconds these add up
to less than half a nanosecond, so whole nanoseconds are read exactly** (`exact_in_working_range`); and no rounding
turns `2 ^ 64` seconds into less, nor a negative number into nothing.
-/

namespace LoadTest

namespace Duration

open Binary64 Numeral Text

-- The number of units in one has a thousand binary digits, and no step here is to write them out.
attribute [local irreducible] Binary64.one

/-! ### Units of time -/

/-- The units of written durations. -/
inductive TimeUnit where
  | millis
  | seconds
  | minutes
  | hours
  /-- No unit is written; the number counts milliseconds. -/
  | bare

namespace TimeUnit

/-- What is written behind the number. -/
def text : TimeUnit → String
  | millis => "ms"
  | seconds => "s"
  | minutes => "m"
  | hours => "h"
  | bare => ""

/-- The nanoseconds in one of the unit. -/
def nanos : TimeUnit → Nat
  | millis => 1_000_000
  | seconds => 1_000_000_000
  | minutes => 60 * 1_000_000_000
  | hours => 3600 * 1_000_000_000
  | bare => 1_000_000

/-- The seconds in one of the unit, as a double. -/
def scale : TimeUnit → Binary64
  | millis => 0.001
  | seconds => 1
  | minutes => 60
  | hours => 3600
  | bare => 0.001

/-- The units of that double. -/
def scaleUnits (unit : TimeUnit) : Nat := roundUnits (unit.nanos * one) (10 ^ 9)

variable {unit : TimeUnit}

/-- The seconds are rounded once. -/
theorem scale_eq (unit : TimeUnit) : unit.scale = ofQuotient false unit.nanos (10 ^ 9) := by
  have hthousandth : (0.001 : Binary64) = ofQuotient false 1_000_000 (10 ^ 9) :=
    (ofDecimal_eq false 1 (-3)).trans (ofQuotient_congr false (by decide) (by decide) (by decide))
  have hwhole : ∀ n : Nat, ofNat n = ofQuotient false (n * 10 ^ 9) (10 ^ 9) := by
    intro n
    exact ofQuotient_congr false Nat.one_pos (by decide) (by rw [Nat.mul_one])
  cases unit with
  | millis => exact hthousandth
  | seconds => exact hwhole 1
  | minutes => exact hwhole 60
  | hours => exact hwhole 3600
  | bare => exact hthousandth

theorem one_le_scaleUnits (unit : TimeUnit) : one ≤ 2 ^ 10 * unit.scaleUnits := by
  cases unit <;> decide +kernel

theorem scaleUnits_lt_limit (unit : TimeUnit) : unit.scaleUnits < Binary64.limit := by
  cases unit <;> decide +kernel

theorem hasUnits_scale (unit : TimeUnit) : unit.scale.HasUnits unit.scaleUnits := by
  rw [scale_eq]
  exact hasUnits_round unit.scaleUnits_lt_limit

theorem nanos_bounds (unit : TimeUnit) : 10 ^ 6 ≤ unit.nanos ∧ unit.nanos ≤ 2 ^ 42 := by
  cases unit <;> decide

theorem close_scaleUnits (unit : TimeUnit) : Close 1 (amount unit.scaleUnits) (unit.nanos / 10 ^ 9) := by
  have hden : 0 < 10 ^ 9 := by decide
  have hlarge : 2 ^ 52 * 10 ^ 9 ≤ unit.nanos * one :=
    calc 2 ^ 52 * 10 ^ 9
      _ ≤ 10 ^ 6 * 2 ^ 82 := by decide
      _ ≤ unit.nanos * one := Nat.mul_le_mul unit.nanos_bounds.1 (two_pow_le_one (by decide))
  have hclose := close_amount hden (.inr hlarge)
  rw [amount_mul_one] at hclose
  exact_mod_cast hclose

end TimeUnit

/-! ### Products -/

section Product

variable {num den n : Nat} {unit : TimeUnit}

/-- The units of the number of seconds that `num / den` of a unit come to, in doubles. -/
def productUnits (num den : Nat) (unit : TimeUnit) : Nat :=
  roundUnits (roundUnits (num * one) den * unit.scaleUnits) one

/-- Numeral, unit and product are rounded, so from a nanosecond on the product is three roundings away. -/
theorem close_productUnits (hden : 0 < den) (h : den ≤ num * unit.nanos) :
    Close 3 (amount (productUnits num den unit)) (num * unit.nanos / den / 10 ^ 9) := by
  have hnum : 2 ^ 62 * den ≤ num * one :=
    calc 2 ^ 62 * den
      _ ≤ 2 ^ 62 * (num * 2 ^ 42) :=
          Nat.mul_le_mul_left _ (Nat.le_trans h (Nat.mul_le_mul_left _ unit.nanos_bounds.2))
      _ = num * 2 ^ 104 := by ring
      _ ≤ num * one := Nat.mul_le_mul_left _ (two_pow_le_one (by decide))
  have hsmall : Representable (2 ^ 62) := by
    have hlimit : 2 ^ 62 < Binary64.limit := Nat.lt_of_le_of_lt (two_pow_le_one (by decide)) one_lt_limit
    simpa using representable_mul_two_pow (m := 1) (s := 62) (by decide) (by simpa using hlimit)
  have hnumeral : Close 1 (amount (roundUnits (num * one) den)) (num / den) := by
    have hclose := close_amount hden (.inr (Nat.le_trans (Nat.mul_le_mul_right _ (by decide)) hnum))
    rwa [amount_mul_one] at hclose
  have hproduct : 2 ^ 52 * one ≤ roundUnits (num * one) den * unit.scaleUnits :=
    calc 2 ^ 52 * one
      _ ≤ 2 ^ 52 * (2 ^ 10 * unit.scaleUnits) := Nat.mul_le_mul_left _ unit.one_le_scaleUnits
      _ = 2 ^ 62 * unit.scaleUnits := by ring
      _ ≤ roundUnits (num * one) den * unit.scaleUnits :=
          Nat.mul_le_mul_right _ (le_roundUnits hsmall hden hnum)
  have hrounded := close_amount Binary64.one_pos (.inr hproduct)
  have hexact := hnumeral.mul unit.close_scaleUnits (amount_nonneg _) (by positivity) (amount_nonneg _)
    (by positivity)
  have hamount : amount (roundUnits (num * one) den * unit.scaleUnits) / one
      = amount (roundUnits (num * one) den) * amount unit.scaleUnits := by
    rw [amount, amount, amount]
    push_cast
    ring
  have hvalue : (num / den * (unit.nanos / 10 ^ 9) : ℚ) = num * unit.nanos / den / 10 ^ 9 := by ring
  rw [hamount] at hrounded
  rw [hvalue] at hexact
  exact hrounded.trans hexact

/-- What is not nothing does not become nothing. -/
theorem productUnits_pos (hden : 0 < den) (h : den ≤ num * unit.nanos) : 0 < productUnits num den unit := by
  have hclose := close_productUnits hden h
  refine Nat.pos_of_ne_zero fun hzero => ?_
  have hvalue : (0 : ℚ) < num * unit.nanos / den / 10 ^ 9 := by
    have hpos : (0 : ℚ) < (num * unit.nanos : Nat) := by exact_mod_cast Nat.lt_of_lt_of_le hden h
    have hden' : (0 : ℚ) < den := by exact_mod_cast hden
    push_cast at hpos
    positivity
  have hle := hclose.ge
  rw [hzero, amount_zero, zero_mul] at hle
  exact absurd hvalue (not_lt.mpr hle)

/-- **In the working range the errors stay below half a nanosecond.** -/
theorem roundDiv_productUnits (hden : 0 < den) (hexact : num * unit.nanos = n * den) (hn : n < 2 ^ 20 * 10 ^ 9)
    (hpos : 0 < n) : roundDiv (productUnits num den unit * 10 ^ 9) one = n := by
  have hone := one_cast_pos
  have hden' : (den : ℚ) ≠ 0 := by exact_mod_cast hden.ne'
  have hclose := close_productUnits hden (hexact ▸ Nat.le_mul_of_pos_left den hpos)
  have hvalue : (num * unit.nanos / den / 10 ^ 9 : ℚ) = n / 10 ^ 9 := by
    have hcast : (num * unit.nanos : ℚ) = n * den := by exact_mod_cast hexact
    rw [hcast, mul_div_cancel_right₀ _ hden']
  rw [hvalue] at hclose
  have hn' : (n : ℚ) < 2 ^ 20 * 10 ^ 9 := by exact_mod_cast hn
  have hbound : (n / 10 ^ 9 : ℚ) ≤ 2 ^ 20 := by linarith
  have hbound' : amount (productUnits num den unit) ≤ 2 ^ 20 + 1 :=
    calc amount (productUnits num den unit)
      _ ≤ n / 10 ^ 9 * (1 + roundoff) ^ 3 := hclose.le
      _ ≤ 2 ^ 20 * (1 + roundoff) ^ 3 := mul_le_mul_of_nonneg_right hbound (factor_pos 3).le
      _ ≤ 2 ^ 20 + 1 := by norm_num [roundoff]
  have herror := hclose.abs_sub_le hbound' (by linarith)
  have hhalf : ((2 ^ 20 + 1) * ((1 + roundoff) ^ 3 - 1) : ℚ) < 1 / (2 * 10 ^ 9) := by norm_num [roundoff]
  obtain ⟨habove, hbelow⟩ := abs_sub_lt_iff.mp (lt_of_le_of_lt herror hhalf)
  generalize productUnits num den unit = units at habove hbelow ⊢
  have hscaled : amount units * one = units := div_mul_cancel₀ _ hone.ne'
  refine roundDiv_eq_of_near Binary64.one_pos ?_ ?_
  · have hlt : (2 * (n * one) : ℚ) < 2 * (units * 10 ^ 9) + one := by
      linarith [mul_lt_mul_of_pos_right hbelow hone]
    exact_mod_cast hlt
  · have hlt : (2 * (units * 10 ^ 9) : ℚ) < 2 * (n * one) + one := by
      linarith [mul_lt_mul_of_pos_right habove hone]
    exact_mod_cast hlt

/-- The greatest number of the unit that is a double and comes to at most `2 ^ 64` seconds. -/
def TimeUnit.greatest : TimeUnit → Nat
  | .millis => 1000 * 2 ^ 64
  | .seconds => 1 * 2 ^ 64
  | .minutes => 4803839602528529 * 2 ^ 6
  | .hours => 5124095576030431 * 2 ^ 0
  | .bare => 1000 * 2 ^ 64

theorem TimeUnit.greatest_spec (unit : TimeUnit) : Representable (unit.greatest * one)
    ∧ unit.greatest * unit.nanos ≤ 2 ^ 64 * 10 ^ 9
    ∧ 2 ^ 64 * one ≤ roundUnits (unit.greatest * one * unit.scaleUnits) one := by
  cases unit <;> exact ⟨representable_mul_one (by decide) (by decide), by decide, by decide +kernel⟩

/-- No rounding leads back below `2 ^ 64` seconds. -/
theorem limit_le_productUnits (hden : 0 < den) (h : 2 ^ 64 * 10 ^ 9 * den ≤ num * unit.nanos) :
    2 ^ 64 * one ≤ productUnits num den unit := by
  obtain ⟨hrepresentable, hbelow, hproduct⟩ := unit.greatest_spec
  have hnanos : 0 < unit.nanos := Nat.lt_of_lt_of_le (by decide) unit.nanos_bounds.1
  have hgreatest : unit.greatest * den ≤ num := by
    refine Nat.le_of_mul_le_mul_right ?_ hnanos
    calc unit.greatest * den * unit.nanos
      _ = unit.greatest * unit.nanos * den := by ring
      _ ≤ 2 ^ 64 * 10 ^ 9 * den := Nat.mul_le_mul_right den hbelow
      _ ≤ num * unit.nanos := h
  have hnumeral : unit.greatest * one ≤ roundUnits (num * one) den := by
    refine le_roundUnits hrepresentable hden ?_
    rw [Nat.mul_right_comm]
    exact Nat.mul_le_mul_right one hgreatest
  exact Nat.le_trans hproduct (roundUnits_mono Binary64.one_pos Binary64.one_pos (by gcongr))

end Product

/-! ### From doubles to durations -/

section Seconds

variable {num den n units : Nat} {unit : TimeUnit}

theorem infinite_mul_scale (negative : Bool) (unit : TimeUnit) :
    Binary64.infinite negative * unit.scale = .infinite negative := by
  obtain ⟨hrepresentable, hscale⟩ := unit.hasUnits_scale
  have hne : unit.scaleUnits ≠ 0 := by
    intro hzero
    have hone := unit.one_le_scaleUnits
    rw [hzero] at hone
    exact absurd Binary64.one_pos (Nat.not_lt.mpr hone)
  rw [hscale]
  change Binary64.mul _ _ = _
  rw [Binary64.mul, if_neg hne, Bool.xor_false]

theorem finite_mul_scale (negative : Bool) (h : Representable units) (unit : TimeUnit) :
    Binary64.finite negative units h * unit.scale = Binary64.round negative (units * unit.scaleUnits) one := by
  obtain ⟨hrepresentable, hscale⟩ := unit.hasUnits_scale
  rw [hscale]
  change Binary64.mul _ _ = _
  rw [Binary64.mul, Bool.xor_false]

/-- A numeral that is too large for doubles stays too large. -/
theorem ofQuotient_mul_scale (negative : Bool) (num den : Nat) (unit : TimeUnit) :
    ofQuotient negative num den * unit.scale
      = if roundUnits (num * one) den < Binary64.limit then
          Binary64.round negative (roundUnits (num * one) den * unit.scaleUnits) one
        else .infinite negative := by
  split
  · next hfinite =>
    have hrepresentable : Representable (roundUnits (num * one) den) := ⟨hfinite, roundUnits_eq_shift _ _⟩
    rw [ofQuotient, round_eq_finite negative hrepresentable rfl, finite_mul_scale]
  · next hinfinite =>
    have hround : ofQuotient negative num den = .infinite negative := dif_neg hinfinite
    rw [hround, infinite_mul_scale]

/-- Neither negative numbers nor those that are too large are durations. -/
theorem ofSeconds?_finite_eq_none {negative : Bool} (hrepresentable : Representable units)
    (h : 2 ^ 64 * one ≤ units ∨ negative = true ∧ 0 < units) :
    ofSeconds? (.finite negative units hrepresentable) = none := by
  rcases h with hlarge | ⟨rfl, hpos⟩
  · have hnanos : limit ≤ roundDiv (units * 1_000_000_000) one :=
      calc limit
        _ = roundDiv (limit * one) one := (roundDiv_mul_left _ Binary64.one_pos).symm
        _ = roundDiv (2 ^ 64 * one * 1_000_000_000) one := by
            rw [Nat.mul_right_comm]
            rfl
        _ ≤ roundDiv (units * 1_000_000_000) one :=
            roundDiv_mono Binary64.one_pos Binary64.one_pos (by gcongr)
    have hlong : ofNanos? (roundDiv (units * 1_000_000_000) one) = none := dif_neg (Nat.not_lt.mpr hnanos)
    rw [ofSeconds?, hlong, ite_self]
  · exact if_pos ⟨rfl, hpos.ne'⟩

theorem ofSeconds?_mul_scale_eq_none {negative : Bool}
    (h : 2 ^ 64 * one ≤ productUnits num den unit ∨ negative = true ∧ 0 < productUnits num den unit) :
    ofSeconds? (ofQuotient negative num den * unit.scale) = none := by
  rw [ofQuotient_mul_scale]
  split
  · unfold Binary64.round
    split
    · exact ofSeconds?_finite_eq_none _ h
    · rfl
  · rfl

/-- A number in the working range comes to its duration. -/
theorem ofSeconds?_mul_scale {d : Duration} (hden : 0 < den) (hexact : num * unit.nanos = d.nanos * den)
    (hrange : d.nanos < 2 ^ 20 * 10 ^ 9) (hpos : 0 < d.nanos) :
    ofSeconds? (ofQuotient false num den * unit.scale) = some d := by
  have hround := roundDiv_productUnits hden hexact hrange hpos
  have hnum : num ≤ 2 ^ 30 * den := by
    refine Nat.le_of_mul_le_mul_right (c := 10 ^ 6) ?_ (by decide)
    calc num * 10 ^ 6
      _ ≤ num * unit.nanos := Nat.mul_le_mul_left num unit.nanos_bounds.1
      _ = d.nanos * den := hexact
      _ ≤ 2 ^ 30 * 10 ^ 6 * den := Nat.mul_le_mul_right den (by omega)
      _ = 2 ^ 30 * den * 10 ^ 6 := by ring
  have hnumeral : roundUnits (num * one) den < Binary64.limit := by
    refine Nat.lt_of_le_of_lt ?_ (representable_two_pow_mul_one (k := 30) (by decide)).1
    refine roundUnits_le (representable_two_pow_mul_one (by decide)) hden ?_
    rw [Nat.mul_right_comm]
    exact Nat.mul_le_mul_right one hnum
  have hproduct : productUnits num den unit < Binary64.limit := by
    have hlow := two_mul_le_roundDiv_mul (productUnits num den unit * 10 ^ 9) Binary64.one_pos
    have hn : d.nanos * one ≤ 2 ^ 50 * one := Nat.mul_le_mul_right one (by omega)
    rw [hround] at hlow
    exact Nat.lt_of_le_of_lt (by omega) (representable_two_pow_mul_one (k := 51) (by decide)).1
  have hrepresentable : Representable (productUnits num den unit) := ⟨hproduct, roundUnits_eq_shift _ _⟩
  rw [ofQuotient_mul_scale, if_pos hnumeral, round_eq_finite false hrepresentable rfl, ofSeconds?, if_neg (by simp)]
  exact (congrArg ofNanos? hround).trans (dif_pos d.nanos_lt)

end Seconds

/-! ### Spellings -/

/-- A text that is a numeral and a unit, with any blanks around it and between the two. -/
def Spelled (s : String) (numeral : List Char) (unit : TimeUnit) : Prop :=
  ∃ before between after, Blanks before ∧ Blanks between ∧ Blanks after
    ∧ s.toList = before ++ (numeral ++ between ++ unit.text.toList) ++ after

theorem units_eq : units = [TimeUnit.millis, .seconds, .minutes, .hours].map fun unit => (unit.text, unit.scale) := rfl

theorem dropTail?_eq_none {tail cs : List Char} {c : Char} (hc : c ∈ tail) (hcs : c ∉ cs) :
    dropTail? tail cs = none := by
  refine Option.eq_none_iff_forall_ne_some.mpr ?_
  intro rest hrest
  rw [dropTail?_eq_some_iff.mp hrest] at hcs
  exact hcs (List.mem_append_right rest hc)

/-- The units that are tried before. -/
def TimeUnit.earlier : TimeUnit → List TimeUnit
  | millis => []
  | seconds => [millis]
  | minutes => [millis, seconds]
  | hours => [millis, seconds, minutes]
  | bare => [millis, seconds, minutes, hours]

/-- Whatever is tried before has a letter that the unit itself does not have. -/
theorem TimeUnit.exists_letter_of_earlier {unit other : TimeUnit} (h : other ∈ unit.earlier) :
    ∃ c ∈ other.text.toList, c ∈ ['m', 's', 'h'] ∧ c ∉ unit.text.toList := by
  have hall : ∀ other ∈ unit.earlier, (other.text.toList.any fun c =>
      ['m', 's', 'h'].contains c && !unit.text.toList.contains c) = true := by
    cases unit <;> decide
  obtain ⟨c, hc, hletter⟩ := List.any_eq_true.mp (hall other h)
  exact ⟨c, hc, by simpa using hletter⟩

/-- **Behind text without their letters a unit is split off,** and no other one, although `ms` ends like `s` and
begins like `m`. -/
theorem splitUnit_append {rest : List Char} (hrest : ∀ c ∈ ['m', 's', 'h'], c ∉ rest) (unit : TimeUnit) :
    splitUnit (rest ++ unit.text.toList) = (rest, unit.scale) := by
  have hsplit : dropTail? unit.text.toList (rest ++ unit.text.toList) = some rest :=
    dropTail?_eq_some_iff.mpr rfl
  have hearlier : ∀ other ∈ unit.earlier, dropTail? other.text.toList (rest ++ unit.text.toList) = none := by
    intro other mem
    obtain ⟨c, hc, hletter, htext⟩ := TimeUnit.exists_letter_of_earlier mem
    exact dropTail?_eq_none hc (List.not_mem_append (hrest c hletter) htext)
  rw [splitUnit, units_eq]
  cases unit with
  | bare =>
      simp only [TimeUnit.earlier, List.forall_mem_cons] at hearlier
      simp only [List.map_cons, List.map_nil, List.findSome?_cons, List.findSome?_nil, hearlier, Option.map_none,
        Option.getD_none]
      exact congrArg (·, TimeUnit.scale .bare) (List.append_nil rest)
  | _ =>
      simp only [TimeUnit.earlier, List.forall_mem_cons] at hearlier
      simp [hearlier, hsplit]

theorem exists_unit (cs : List Char) :
    ∃ unit : TimeUnit, cs = (splitUnit cs).1 ++ unit.text.toList ∧ (splitUnit cs).2 = unit.scale := by
  unfold splitUnit
  simp only
  generalize hfound : units.findSome? _ = found
  cases found with
  | none => exact ⟨.bare, (List.append_nil cs).symm, rfl⟩
  | some split =>
      obtain ⟨⟨text, seconds⟩, mem, hsplit⟩ := List.exists_of_findSome?_eq_some hfound
      rw [units_eq] at mem
      obtain ⟨unit, -, hunit⟩ := List.mem_map.mp mem
      obtain ⟨number, hnumber, rfl⟩ := Option.map_eq_some_iff.mp hsplit
      obtain ⟨rfl, rfl⟩ := Prod.mk.inj hunit
      exact ⟨unit, dropTail?_eq_some_iff.mp hnumber, rfl⟩

variable {s : String} {numeral : List Char} {unit : TimeUnit} {meaning : Meaning}

theorem not_letter_of_isBlank {c : Char} (h : isBlank c = true) : c ∉ ['m', 's', 'h'] := by
  intro mem
  have hall : ∀ c ∈ ['m', 's', 'h'], isBlank c = false := by decide
  rw [hall c mem] at h
  cases h

theorem not_letter_of_mem_alphabet {c : Char} (h : c ∈ alphabet) : c ∉ ['m', 's', 'h'] := by
  have hall : ∀ c ∈ alphabet, c ∉ ['m', 's', 'h'] := by decide
  exact hall c h

/-- The blanks around a spelling are cut off; those behind its numeral stay if a unit follows them. -/
theorem Spelled.trimList_eq {x : Binary64} (h : Spelled s numeral unit) (hread : ofList? numeral = some x) :
    ∃ between, Blanks between ∧ trimList s.toList = numeral ++ between ++ unit.text.toList := by
  obtain ⟨before, between, after, hbefore, hbetween, hafter, hs⟩ := h
  have hne := ne_nil_of_ofList? hread
  have hnumeral := trimmed_of_all (not_blank_of_ofList? hread)
  rw [hs]
  by_cases hbare : unit.text.toList = []
  · refine ⟨[], blanks_nil, ?_⟩
    rw [hbare, List.append_nil, List.append_nil, List.append_nil, ← List.append_assoc, List.append_assoc _ between]
    exact trimList_padding hbefore (hbetween.append hafter) hnumeral
  · refine ⟨between, hbetween, trimList_padding hbefore hafter ⟨?_, ?_⟩⟩
    · intro c mem
      rw [List.append_assoc, List.head?_append_of_ne_nil _ hne] at mem
      exact hnumeral.1 c mem
    · intro c mem
      rw [List.getLast?_append_of_ne_nil _ hbare] at mem
      have hall : ∀ c ∈ unit.text.toList, isBlank c = false := by
        cases unit <;> decide
      exact hall c (List.mem_of_mem_getLast? mem)

/-- **A spelling is read as the product of its numeral and its unit.** -/
theorem ofText?_of_spelled (hspelled : Spelled s numeral unit) (hdenotes : Denotes numeral meaning) :
    ofText? s = ofSeconds? (meaning.nearest * unit.scale) := by
  have hread := ofList?_of_denotes hdenotes
  obtain ⟨between, hbetween, htrim⟩ := hspelled.trimList_eq hread
  have hletters : ∀ c ∈ ['m', 's', 'h'], c ∉ numeral ++ between := by
    intro c hletter mem
    rcases List.mem_append.mp mem with hmem | hmem
    · exact not_letter_of_mem_alphabet (mem_alphabet_of_ofList? hread c hmem) hletter
    · exact not_letter_of_isBlank (hbetween c hmem) hletter
  have hnumber := trimList_numeral blanks_nil hbetween hread
  rw [List.nil_append] at hnumber
  rw [ofText?, htrim, splitUnit_append hletters]
  simp only [hnumber, hread, Option.bind_eq_bind, Option.bind_some]

/-- **What is read is a spelling.** -/
theorem exists_spelled {d : Duration} (h : ofText? s = some d) :
    ∃ numeral unit meaning, Spelled s numeral unit ∧ Denotes numeral meaning := by
  obtain ⟨before, after, hbefore, hafter, -, hs⟩ := exists_padding s.toList
  obtain ⟨unit, hunit, -⟩ := exists_unit (trimList s.toList)
  obtain ⟨x, hread⟩ : ∃ x, ofList? (trimList (splitUnit (trimList s.toList)).1) = some x := by
    rw [ofText?] at h
    obtain ⟨x, hread, -⟩ := Option.bind_eq_some_iff.mp h
    exact ⟨x, hread⟩
  obtain ⟨meaning, hdenotes, -⟩ := exists_meaning hread
  obtain ⟨left, right, hleft, hright, -, hnumber⟩ := exists_padding (splitUnit (trimList s.toList)).1
  generalize (splitUnit (trimList s.toList)).1 = number at *
  refine ⟨_, unit, meaning, ⟨before ++ left, right, after, hbefore.append hleft, hright, hafter, ?_⟩, hdenotes⟩
  calc s.toList
    _ = before ++ (number ++ unit.text.toList) ++ after := by rw [← hunit, ← hs]
    _ = before ++ (left ++ trimList number ++ right ++ unit.text.toList) ++ after := by rw [← hnumber]
    _ = before ++ left ++ (trimList number ++ right ++ unit.text.toList) ++ after := by simp only [List.append_assoc]

/-! ### Exact values -/

theorem cast_quotient (digits : Nat) (exponent : Int) :
    ((digits * 10 ^ exponent.toNat : Nat) : ℚ) / (10 ^ (-exponent).toNat : Nat) = digits * 10 ^ exponent := by
  push_cast
  rcases Int.le_total 0 exponent with hle | hle
  · obtain ⟨n, rfl⟩ := Int.eq_ofNat_of_zero_le hle
    simp
  · obtain ⟨n, rfl⟩ := Int.exists_eq_neg_ofNat hle
    simp [div_eq_mul_inv]

/-- What has no value has no duration. -/
theorem ofText?_of_value?_eq_none (hspelled : Spelled s numeral unit) (hdenotes : Denotes numeral meaning)
    (hvalue : meaning.value? = none) : ofText? s = none := by
  rw [ofText?_of_spelled hspelled hdenotes]
  cases meaning with
  | nan =>
      obtain ⟨hrepresentable, hscale⟩ := unit.hasUnits_scale
      rw [hscale]
      rfl
  | infinite negative =>
      rw [Meaning.nearest, infinite_mul_scale]
      rfl
  | decimal negative digits exponent => cases hvalue

section Value

variable {value : ℚ} {num den k : Nat}

/-- A bound on a quotient of natural numbers, without the division. -/
theorem le_quotient_iff (hden : 0 < den) (unit : TimeUnit) :
    (k : ℚ) ≤ num / den * unit.nanos ↔ k * den ≤ num * unit.nanos := by
  have hden' : (0 : ℚ) < den := by exact_mod_cast hden
  rw [div_mul_eq_mul_div, le_div_iff₀ hden']
  exact_mod_cast Iff.rfl

/-- What has a value is read as the product of a quotient and the unit. -/
theorem exists_quotient (hspelled : Spelled s numeral unit) (hdenotes : Denotes numeral meaning)
    (hvalue : meaning.value? = some value) : ∃ (negative : Bool) (num den : Nat), 0 < den
      ∧ value = (if negative then -1 else 1) * (num / den)
      ∧ ofText? s = ofSeconds? (ofQuotient negative num den * unit.scale) := by
  cases meaning with
  | nan => cases hvalue
  | infinite negative => cases hvalue
  | decimal negative digits exponent =>
      refine ⟨negative, digits * 10 ^ exponent.toNat, 10 ^ (-exponent).toNat, Nat.pow_pos (by decide), ?_, ?_⟩
      · rw [cast_quotient]
        exact (Option.some.inj hvalue).symm
      · rw [ofText?_of_spelled hspelled hdenotes, Meaning.nearest, ofDecimal_eq]

theorem ofText?_eq_none_of_value (hspelled : Spelled s numeral unit) (hdenotes : Denotes numeral meaning)
    (hvalue : meaning.value? = some value)
    (hrange : value * unit.nanos ≤ -1 ∨ 2 ^ 64 * 10 ^ 9 ≤ value * unit.nanos) : ofText? s = none := by
  obtain ⟨negative, num, den, hden, rfl, htext⟩ := exists_quotient hspelled hdenotes hvalue
  have hnonneg : (0 : ℚ) ≤ num / den * unit.nanos := by positivity
  rw [htext]
  refine ofSeconds?_mul_scale_eq_none ?_
  cases negative with
  | true =>
      have hone : ((1 : Nat) : ℚ) ≤ num / den * unit.nanos := by
        rw [if_pos rfl, neg_one_mul, neg_mul] at hrange
        push_cast
        rcases hrange with hrange | hrange <;> linarith
      rw [le_quotient_iff hden, Nat.one_mul] at hone
      exact .inr ⟨rfl, productUnits_pos hden hone⟩
  | false =>
      have hlarge : ((2 ^ 64 * 10 ^ 9 : Nat) : ℚ) ≤ num / den * unit.nanos := by
        rw [if_neg Bool.false_ne_true, one_mul] at hrange
        push_cast
        rcases hrange with hrange | hrange <;> linarith
      rw [le_quotient_iff hden] at hlarge
      exact .inl (limit_le_productUnits hden hlarge)

/-- Nothing is no time at all, with either sign and in any unit. -/
theorem ofSeconds?_zero_mul_scale (negative : Bool) (den : Nat) (unit : TimeUnit) :
    ofSeconds? (ofQuotient negative 0 den * unit.scale) = some zero := by
  rw [ofQuotient, Nat.zero_mul, round_zero, unit.hasUnits_scale.zero_mul]
  simp [ofSeconds?, Binary64.zero, ofNanos?, roundDiv, zero, limit]

theorem ofText?_eq_some_of_value (hspelled : Spelled s numeral unit) (hdenotes : Denotes numeral meaning)
    (hvalue : meaning.value? = some value) {d : Duration} (hexact : value * unit.nanos = d.nanos)
    (hrange : d.nanos < 2 ^ 20 * 10 ^ 9) : ofText? s = some d := by
  obtain ⟨negative, num, den, hden, rfl, htext⟩ := exists_quotient hspelled hdenotes hvalue
  have hden' : (0 : ℚ) < den := by exact_mod_cast hden
  have hnanos : 0 < unit.nanos := Nat.lt_of_lt_of_le (by decide) unit.nanos_bounds.1
  rw [htext]
  rcases Nat.eq_zero_or_pos num with rfl | hpos
  · have hzero : d = zero := by
      refine Duration.ext ?_
      have hcast : (d.nanos : ℚ) = 0 := by simpa using hexact.symm
      exact_mod_cast hcast
    rw [hzero]
    exact ofSeconds?_zero_mul_scale negative den unit
  · have hproduct : (0 : ℚ) < num / den * unit.nanos := by positivity
    cases negative with
    | true =>
        rw [if_pos rfl, neg_one_mul, neg_mul] at hexact
        have hnonneg : (0 : ℚ) ≤ d.nanos := Nat.cast_nonneg _
        linarith
    | false =>
        rw [if_neg Bool.false_ne_true, one_mul] at hexact
        have hmul : num * unit.nanos = d.nanos * den := by
          rw [div_mul_eq_mul_div, div_eq_iff hden'.ne'] at hexact
          exact_mod_cast hexact
        have hd : 0 < d.nanos := by
          rw [hexact] at hproduct
          exact_mod_cast hproduct
        exact ofSeconds?_mul_scale hden hmul hrange hd

end Value

/-- **Written durations are exact in the working range.** A numeral and a unit that come to a whole number of
nanoseconds below `2 ^ 20` seconds are read as exactly that duration, with any blanks around them. What comes to a
nanosecond less than nothing or even less, or to `2 ^ 64` seconds or more, is not read, and no more are infinities,
`nan` and what is no numeral. -/
theorem exact_in_working_range (s : String) :
    (∀ numeral unit meaning, Spelled s numeral unit → Denotes numeral meaning →
      (meaning.value? = none → ofText? s = none)
      ∧ ∀ value, meaning.value? = some value →
        (∀ d : Duration, value * unit.nanos = d.nanos → d.nanos < 2 ^ 20 * 10 ^ 9 → ofText? s = some d)
        ∧ (value * unit.nanos ≤ -1 ∨ 2 ^ 64 * 10 ^ 9 ≤ value * unit.nanos → ofText? s = none))
    ∧ ((∀ numeral unit meaning, Spelled s numeral unit → ¬ Denotes numeral meaning) → ofText? s = none) := by
  constructor
  · intro numeral unit meaning hspelled hdenotes
    refine ⟨ofText?_of_value?_eq_none hspelled hdenotes, fun value hvalue => ⟨?_, ?_⟩⟩
    · intro d hexact hrange
      exact ofText?_eq_some_of_value hspelled hdenotes hvalue hexact hrange
    · intro hrange
      exact ofText?_eq_none_of_value hspelled hdenotes hvalue hrange
  · intro hnot
    refine Option.eq_none_iff_forall_ne_some.mpr ?_
    intro d hd
    obtain ⟨numeral, unit, meaning, hspelled, hdenotes⟩ := exists_spelled hd
    exact hnot numeral unit meaning hspelled hdenotes

/-- A minute and a half with blanks in it is read; a millisecond less than nothing, an infinity and a word are not. -/
theorem minute_and_a_half_is_exact : ofText? " 1.5 m " = some (ofSeconds 90) ∧ ofText? "-1ms" = none
    ∧ ofText? "+inf h" = none ∧ ofText? "soon" = none := by
  have hmagnitude : Magnitude "1.5".toList 15 (0 - 1) :=
    @Magnitude.intro ['1'] ['.', '5'] ['5'] [] 0 (by simp [Digits, isDigit]) (.point (by simp [Digits, isDigit]))
      (by decide) .omitted
  have hless : Magnitude "1".toList 1 (0 - 0) :=
    @Magnitude.intro ['1'] [] [] [] 0 (by simp [Digits, isDigit]) .omitted (by decide) .omitted
  have hblank : Blanks [' '] := by simp [Blanks, isBlank, blankCodes]
  refine ⟨?_, ?_, ?_, ?_⟩
  · have hspelled : Spelled " 1.5 m " "1.5".toList .minutes := ⟨[' '], [' '], [' '], hblank, hblank, hblank, rfl⟩
    have hexact := ((exact_in_working_range " 1.5 m ").1 _ _ _ hspelled (.decimal .omitted hmagnitude)).2 _ rfl
    exact hexact.1 (ofSeconds 90) (by norm_num [TimeUnit.nanos, ofSeconds, ofNanosCapped, limit, UInt64.size])
      (by decide)
  · have hspelled : Spelled "-1ms" "-1".toList .millis := ⟨[], [], [], blanks_nil, blanks_nil, blanks_nil, rfl⟩
    have hexact := ((exact_in_working_range "-1ms").1 _ _ _ hspelled (.decimal .minus hless)).2 _ rfl
    exact hexact.2 (.inl (by norm_num [TimeUnit.nanos]))
  · have hspelled : Spelled "+inf h" "+inf".toList .hours := ⟨[], [' '], [], blanks_nil, hblank, blanks_nil, rfl⟩
    have hdenotes : Denotes "+inf".toList (.infinite false) := @Denotes.infinite ['+'] "inf".toList _ .plus (.inl rfl)
    exact ((exact_in_working_range "+inf h").1 _ _ _ hspelled hdenotes).1 rfl
  · refine (exact_in_working_range "soon").2 ?_
    intro numeral unit meaning hspelled hdenotes
    obtain ⟨before, between, after, hbefore, hbetween, hafter, hs⟩ := hspelled
    have hmem : 'o' ∈ before ++ (numeral ++ between ++ unit.text.toList) ++ after := hs ▸ (by decide)
    have hblanks : ∀ cs, Blanks cs → 'o' ∉ cs := by
      intro cs h mem
      exact absurd (h 'o' mem) (by decide)
    have hnumeral : 'o' ∉ numeral := by
      intro mem
      exact absurd (mem_alphabet_of_ofList? (ofList?_of_denotes hdenotes) 'o' mem) (by decide)
    have hunit : 'o' ∉ unit.text.toList := by
      cases unit <;> decide
    simp [hblanks before hbefore, hblanks between hbetween, hblanks after hafter, hnumeral, hunit] at hmem

end Duration

end LoadTest
