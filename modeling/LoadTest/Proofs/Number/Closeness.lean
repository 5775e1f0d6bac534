import LoadTest.Proofs.Number.Arithmetic
import Mathlib.Algebra.Order.Field.Rat
import Mathlib.Data.Nat.Cast.Order.Field
import Mathlib.Tactic.FieldSimp
import Mathlib.Tactic.GCongr
import Mathlib.Tactic.NormNum
import Mathlib.Tactic.Positivity

/-!
# LoadTest.Proofs.Number.Closeness

How far a chain of roundings leads away from what is exact. **Each rounding of a number that is not too small
makes it greater or smaller by a factor of at most `1 + 2 ^ -53`,** and such factors multiply along a chain:
`Close k x y` says that `k` of them lead from either number beyond the other (`close_roundUnits`, `Close.trans`,
`Close.mul`). Where numbers are subtracted, relative errors say nothing; there the error is that of the greatest
number around (`abs_roundUnits_sub_le`).
-/

namespace LoadTest

theorem two_mul_le_roundDiv_mul (num : Nat) {den : Nat} (hden : 0 < den) :
    2 * num ≤ 2 * (roundDiv num den * den) + den := by
  have hsplit := Nat.div_add_mod num den
  rw [Nat.mul_comm den] at hsplit
  unfold roundDiv
  split
  · have hmod := Nat.mod_lt num hden
    rw [Nat.add_mul, Nat.one_mul]
    omega
  · next h => omega

/-- A quotient is rounded to the whole number that it is less than one half away from. -/
theorem roundDiv_eq_of_near {num den n : Nat} (hden : 0 < den) (hbelow : 2 * (n * den) < 2 * num + den)
    (habove : 2 * num < 2 * (n * den) + den) : roundDiv num den = n := by
  have hhigh := two_mul_roundDiv_mul_le num den
  have hlow := two_mul_le_roundDiv_mul num hden
  have hle : roundDiv num den < n + 1 := by
    refine Nat.lt_of_mul_lt_mul_right (a := den) ?_
    rw [Nat.add_mul, Nat.one_mul]
    omega
  have hge : n < roundDiv num den + 1 := by
    refine Nat.lt_of_mul_lt_mul_right (a := den) ?_
    rw [Nat.add_mul, Nat.one_mul]
    omega
  omega

namespace Binary64

-- The number of units in one has a thousand binary digits, and no step here is to write them out.
attribute [local irreducible] one

/-! ### Chains of roundings -/

/-- What one rounding adds at most, as a part of what is rounded. -/
def roundoff : ℚ := 1 / 2 ^ 53

theorem roundoff_pos : 0 < roundoff := by norm_num [roundoff]

/-- Either number is at most the other one after so many factors of a rounding. -/
structure Close (k : Nat) (x y : ℚ) : Prop where
  le : x ≤ y * (1 + roundoff) ^ k
  ge : y ≤ x * (1 + roundoff) ^ k

section Close

variable {j k : Nat} {x y z w bound : ℚ}

theorem factor_pos (k : Nat) : 0 < (1 + roundoff) ^ k := by
  have := roundoff_pos
  positivity

theorem close_self (x : ℚ) : Close 0 x x := by constructor <;> simp

theorem Close.trans (first : Close j x y) (second : Close k y z) : Close (j + k) x z := by
  constructor
  · calc x
        _ ≤ y * (1 + roundoff) ^ j := first.le
        _ ≤ z * (1 + roundoff) ^ k * (1 + roundoff) ^ j :=
            mul_le_mul_of_nonneg_right second.le (factor_pos j).le
        _ = z * (1 + roundoff) ^ (j + k) := by ring
  · calc z
        _ ≤ y * (1 + roundoff) ^ k := second.ge
        _ ≤ x * (1 + roundoff) ^ j * (1 + roundoff) ^ k :=
            mul_le_mul_of_nonneg_right first.ge (factor_pos k).le
        _ = x * (1 + roundoff) ^ (j + k) := by ring

theorem Close.mono (h : Close j x y) (hjk : j ≤ k) (hx : 0 ≤ x) (hy : 0 ≤ y) : Close k x y := by
  have hfactor : (1 + roundoff) ^ j ≤ (1 + roundoff) ^ k :=
    pow_le_pow_right₀ (by linarith [roundoff_pos]) hjk
  exact ⟨h.le.trans (mul_le_mul_of_nonneg_left hfactor hy), h.ge.trans (mul_le_mul_of_nonneg_left hfactor hx)⟩

theorem Close.add (first : Close k x y) (second : Close k z w) : Close k (x + z) (y + w) := by
  constructor
  · rw [add_mul]
    exact add_le_add first.le second.le
  · rw [add_mul]
    exact add_le_add first.ge second.ge

theorem Close.mul (first : Close j x y) (second : Close k z w) (hx : 0 ≤ x) (hy : 0 ≤ y) (hz : 0 ≤ z)
    (hw : 0 ≤ w) : Close (j + k) (x * z) (y * w) := by
  have hj := (factor_pos j).le
  have hk := (factor_pos k).le
  constructor
  · calc x * z
        _ ≤ y * (1 + roundoff) ^ j * (w * (1 + roundoff) ^ k) := mul_le_mul first.le second.le hz (by positivity)
        _ = y * w * (1 + roundoff) ^ (j + k) := by ring
  · calc y * w
        _ ≤ x * (1 + roundoff) ^ j * (z * (1 + roundoff) ^ k) := mul_le_mul first.ge second.ge hw (by positivity)
        _ = x * z * (1 + roundoff) ^ (j + k) := by ring

theorem Close.inv (h : Close k x y) (hx : 0 < x) (hy : 0 < y) : Close k x⁻¹ y⁻¹ := by
  constructor
  · rw [inv_mul_eq_div, le_div_iff₀ hy, inv_mul_eq_div, div_le_iff₀ hx, mul_comm]
    exact h.ge
  · rw [inv_mul_eq_div, le_div_iff₀ hx, inv_mul_eq_div, div_le_iff₀ hy, mul_comm]
    exact h.le

theorem Close.div (first : Close j x y) (second : Close k z w) (hx : 0 ≤ x) (hy : 0 ≤ y) (hz : 0 < z)
    (hw : 0 < w) : Close (j + k) (x / z) (y / w) := by
  rw [div_eq_mul_inv, div_eq_mul_inv]
  exact first.mul (second.inv hz hw) hx hy (inv_nonneg.mpr hz.le) (inv_nonneg.mpr hw.le)

/-- Numbers that are close differ by a small part of what bounds them. -/
theorem Close.abs_sub_le (h : Close k x y) (hx : x ≤ bound) (hy : y ≤ bound) :
    |x - y| ≤ bound * ((1 + roundoff) ^ k - 1) := by
  have hfactor : 0 ≤ (1 + roundoff) ^ k - 1 := by
    have := one_le_pow₀ (n := k) (show 1 ≤ 1 + roundoff by linarith [roundoff_pos])
    linarith
  rw [abs_sub_le_iff]
  constructor
  · calc x - y
        _ ≤ y * ((1 + roundoff) ^ k - 1) := by linarith [h.le]
        _ ≤ bound * ((1 + roundoff) ^ k - 1) := mul_le_mul_of_nonneg_right hy hfactor
  · calc y - x
        _ ≤ x * ((1 + roundoff) ^ k - 1) := by linarith [h.ge]
        _ ≤ bound * ((1 + roundoff) ^ k - 1) := mul_le_mul_of_nonneg_right hx hfactor

end Close

/-! ### One rounding -/

section Rounding

variable {num den units : Nat}

/-- **Rounding errs by half a last place,** in either direction. -/
theorem abs_roundUnits_sub_le_lastPlace (num : Nat) (hden : 0 < den) :
    |(roundUnits num den : ℚ) - num / den| ≤ lastPlace (num / den) / 2 := by
  have hden' : (0 : ℚ) < den := by exact_mod_cast hden
  have hplace := lastPlace_pos (num / den)
  have habove := two_mul_roundDiv_mul_le num (den * lastPlace (num / den))
  have hbelow := two_mul_le_roundDiv_mul num (Nat.mul_pos hden hplace)
  rw [roundDiv_mul_lastPlace] at habove hbelow
  generalize roundUnits num den = rounded at *
  generalize lastPlace (num / den) = place at *
  have habove : 2 * ((rounded : ℚ) * den) ≤ 2 * num + den * place := by exact_mod_cast habove
  have hbelow : 2 * (num : ℚ) ≤ 2 * (rounded * den) + den * place := by exact_mod_cast hbelow
  have hscaled : |(rounded : ℚ) * den - num| ≤ den * (place / 2) := by
    rw [abs_sub_le_iff]
    constructor <;> linarith
  have hquotient : (rounded : ℚ) - num / den = (rounded * den - num) / den := by field_simp
  rw [hquotient, abs_div, abs_of_pos hden', div_le_iff₀ hden', mul_comm (place / 2 : ℚ)]
  exact hscaled

/-- The last place of a number that is not too small is a small part of every number in its range. -/
theorem lastPlace_le_roundoff {least : Nat} (hlarge : 2 ^ 52 ≤ units) (h : 2 ^ units.log2 ≤ least) :
    (lastPlace units : ℚ) / 2 ≤ least * roundoff := by
  have hlog : 52 ≤ units.log2 := (Nat.le_log2 (by omega)).mpr hlarge
  have hplace : lastPlace units * 2 ^ 52 = 2 ^ units.log2 := by
    rw [lastPlace_eq, ← Nat.pow_add, Nat.sub_add_cancel hlog]
  have hle : (lastPlace units : ℚ) * 2 ^ 52 ≤ least := by exact_mod_cast hplace ▸ h
  rw [roundoff]
  linarith

/-- **A rounding is close to what is rounded,** if that is not too small. -/
theorem close_roundUnits (hden : 0 < den) (hlarge : 2 ^ 52 * den ≤ num) :
    Close 1 (roundUnits num den) (num / den) := by
  have hunits : 2 ^ 52 ≤ num / den := (Nat.le_div_iff_mul_le hden).mpr hlarge
  have hpower : 2 ^ (num / den).log2 ≤ num / den := Nat.log2_self_le (by omega)
  have herror := abs_sub_le_iff.mp (abs_roundUnits_sub_le_lastPlace num hden)
  have hexact := lastPlace_le_roundoff hunits hpower
  have hrounded := lastPlace_le_roundoff hunits (two_pow_le_roundUnits hpower (by omega))
  have hfloor : ((num / den : Nat) : ℚ) ≤ num / den := Nat.cast_div_le
  have hpart := mul_le_mul_of_nonneg_right hfloor roundoff_pos.le
  constructor <;> rw [pow_one, mul_add, mul_one] <;> linarith

/-- Below a bound that is not too small, a rounding errs by a small part of the bound. -/
theorem abs_roundUnits_sub_le {bound : Nat} (hden : 0 < den) (hbound : 2 ^ 52 ≤ bound) (hle : num ≤ bound * den) :
    |(roundUnits num den : ℚ) - num / den| ≤ bound * roundoff := by
  have hquotient : num / den ≤ bound := Nat.div_le_of_le_mul (by rwa [Nat.mul_comm])
  have hplace : lastPlace (num / den) ≤ lastPlace bound := by
    rw [lastPlace_eq, lastPlace_eq]
    exact Nat.pow_le_pow_right (by decide) (Nat.sub_le_sub_right (log2_mono hquotient) 52)
  have hplace : (lastPlace (num / den) : ℚ) ≤ lastPlace bound := by exact_mod_cast hplace
  have hsmall := lastPlace_le_roundoff hbound (Nat.log2_self_le (n := bound) (by omega))
  exact (abs_roundUnits_sub_le_lastPlace num hden).trans (by linarith)

end Rounding

/-! ### What units stand for -/

/-- The number that so many units are. -/
def amount (units : Nat) : ℚ := units / one

/-- Nothing, or so much that the last place is a small part of it. -/
def Sizable (units : Nat) : Prop := units = 0 ∨ 2 ^ 52 ≤ units

section Amount

variable {num den units rest : Nat}

theorem one_cast_pos : (0 : ℚ) < one := by exact_mod_cast one_pos

theorem two_pow_le_one {k : Nat} (h : k ≤ 1074) : 2 ^ k ≤ one := by
  obtain ⟨rest, hrest⟩ := Nat.exists_eq_add_of_le h
  rw [one_eq, hrest, Nat.pow_add]
  exact Nat.le_mul_of_pos_right _ (Nat.two_pow_pos rest)

@[simp] theorem amount_zero : amount 0 = 0 := by simp [amount]

theorem amount_nonneg (units : Nat) : 0 ≤ amount units := div_nonneg (Nat.cast_nonneg _) one_cast_pos.le

theorem amount_pos (h : 0 < units) : 0 < amount units := div_pos (by exact_mod_cast h) one_cast_pos

theorem amount_mono (h : units ≤ rest) : amount units ≤ amount rest :=
  div_le_div_of_nonneg_right (by exact_mod_cast h) one_cast_pos.le

theorem amount_add (units rest : Nat) : amount (units + rest) = amount units + amount rest := by
  rw [amount, Nat.cast_add, add_div]
  rfl

theorem amount_sub (h : rest ≤ units) : amount (units - rest) = amount units - amount rest := by
  rw [amount, Nat.cast_sub h, sub_div]
  rfl

@[simp] theorem amount_mul_one (n : Nat) : amount (n * one) = n := by
  rw [amount, Nat.cast_mul, mul_div_cancel_right₀ _ one_cast_pos.ne']

theorem sizable_mul_one (n : Nat) : Sizable (n * one) := by
  rcases Nat.eq_zero_or_pos n with rfl | hpos
  · exact .inl (Nat.zero_mul _)
  · exact .inr (Nat.le_trans (two_pow_le_one (by decide)) (Nat.le_mul_of_pos_left _ hpos))

theorem Sizable.add (h : Sizable units) (hrest : Sizable rest) : Sizable (units + rest) := by
  unfold Sizable at *
  omega

theorem sizable_roundUnits (hden : 0 < den) (h : num = 0 ∨ 2 ^ 52 * den ≤ num) : Sizable (roundUnits num den) := by
  rcases h with rfl | hlarge
  · exact .inl (roundUnits_zero den)
  · have hlimit : 2 ^ 52 < limit := Nat.lt_of_le_of_lt (two_pow_le_one (by decide)) one_lt_limit
    exact .inr (le_roundUnits ⟨hlimit, 2 ^ 52, 0, by decide, rfl⟩ hden hlarge)

/-- The amount of what is rounded is close to the exact one. -/
theorem close_amount (hden : 0 < den) (h : num = 0 ∨ 2 ^ 52 * den ≤ num) :
    Close 1 (amount (roundUnits num den)) (amount num / den) := by
  rcases h with rfl | hlarge
  · constructor <;> simp
  · have hclose := (close_roundUnits hden hlarge).div (close_self (one : ℚ)) (Nat.cast_nonneg _) (by positivity)
      one_cast_pos one_cast_pos
    rwa [div_right_comm] at hclose

/-- The rounding of a sum or a difference. -/
theorem Sizable.close_amount (h : Sizable units) : Close 1 (amount (roundUnits units 1)) (amount units) := by
  have hclose := Binary64.close_amount Nat.one_pos (show units = 0 ∨ 2 ^ 52 * 1 ≤ units by rwa [Nat.mul_one])
  rwa [Nat.cast_one, div_one] at hclose

/-- Whole numbers. -/
theorem close_whole (n : Nat) : Close 1 (amount (roundUnits (n * one) 1)) n := by
  have hclose := (sizable_mul_one n).close_amount
  rwa [amount_mul_one] at hclose

/-- The amount of what is rounded errs by a small part of what bounds it. -/
theorem abs_amount_sub_le {bound : Nat} (hbound : 0 < bound) (hle : units ≤ bound * one) :
    |amount (roundUnits units 1) - amount units| ≤ bound * roundoff := by
  have hone := one_cast_pos
  have hlarge : 2 ^ 52 ≤ bound * one :=
    Nat.le_trans (two_pow_le_one (by decide)) (Nat.le_mul_of_pos_left _ hbound)
  have herror := abs_roundUnits_sub_le Nat.one_pos hlarge (show units ≤ bound * one * 1 by rwa [Nat.mul_one])
  rw [amount, amount, ← sub_div, abs_div, abs_of_pos hone, div_le_iff₀ hone]
  push_cast at herror
  rw [div_one] at herror
  linarith

end Amount

end Binary64

end LoadTest
