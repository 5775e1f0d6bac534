import LoadTest.Number.Shortest
import LoadTest.Proofs.Number.Arithmetic

/-!
# LoadTest.Proofs.Number.Decimal

Decimal numbers and the doubles nearest to them. **Only the value counts:** a power of ten may be moved between
the digits and the exponent (`ofDecimal_mul_pow`), and the cut at exponents beyond every double cuts nothing off
(`ofDecimal_eq`). The shortest decimal number of a double therefore reads back (`readsBack_shortest`): where no
short one does, the exact one is left.
-/

namespace LoadTest.Binary64

attribute [local irreducible] Binary64.one

variable {a b c d units : Nat}

/-! ### Equal quotients -/

theorem roundUnits_congr (hb : 0 < b) (hd : 0 < d) (h : a * d = c * b) : roundUnits a b = roundUnits c d :=
  Nat.le_antisymm (roundUnits_mono hb hd (Nat.le_of_eq h)) (roundUnits_mono hd hb (Nat.le_of_eq h.symm))

theorem round_congr (negative : Bool) (h : roundUnits a b = roundUnits c d) :
    round negative a b = round negative c d := by
  simp only [round, h]

/-- Equal quotients have the same double. -/
theorem ofQuotient_congr (negative : Bool) (hb : 0 < b) (hd : 0 < d) (h : a * d = c * b) :
    ofQuotient negative a b = ofQuotient negative c d := by
  refine round_congr negative (roundUnits_congr hb hd ?_)
  calc a * one * d
      _ = a * d * one := by ring
      _ = c * one * b := by rw [h]; ring

/-! ### Beyond every double -/

theorem limit_le_roundUnits (h : limit ≤ a) : limit ≤ roundUnits a 1 := by
  have hlimit : limit = 2 ^ 2098 := one_shiftLeft 2098
  have hplace : (limit / 1).log2 - 52 ≤ 2098 := by
    rw [Nat.div_one, hlimit, Nat.log2_two_pow]
    exact Nat.sub_le 2098 52
  calc limit
      _ = 2 ^ 2098 := hlimit
      _ ≤ roundUnits limit 1 := two_pow_le_roundUnits (by rw [Nat.div_one, hlimit]) hplace
      _ ≤ roundUnits a 1 := roundUnits_mono Nat.one_pos Nat.one_pos (Nat.mul_le_mul_right 1 h)

/-- Whatever is below half a unit is rounded to zero. -/
theorem roundUnits_eq_zero (h : 2 * a < b) : roundUnits a b = 0 := by
  have hquotient : a / b = 0 := Nat.div_eq_of_lt (by omega)
  have hplace : lastPlace 0 = 1 := rfl
  have hrest : a % b = a := Nat.mod_eq_of_lt (by omega)
  rw [roundUnits, hquotient, hplace, Nat.mul_one, Nat.mul_one, roundDiv, hrest, if_neg, hquotient]
  omega

theorem round_eq_finite (negative : Bool) (h : Representable units) (hunits : roundUnits a b = units) :
    round negative a b = .finite negative units h := by
  subst hunits
  exact dif_pos h.1

theorem round_eq_zero (negative : Bool) (h : roundUnits a b = 0) : round negative a b = zero negative :=
  round_eq_finite negative representable_zero h

/-- A number has at most as many decimal digits as groups of three binary ones. -/
theorem lt_ten_pow (m : Nat) : m < 10 ^ (m.log2 / 3 + 1) := by
  calc m
      _ < 2 ^ (m.log2 + 1) := Nat.lt_log2_self
      _ ≤ 2 ^ (3 * (m.log2 / 3 + 1)) := Nat.pow_le_pow_right (by decide) (by omega)
      _ = (2 ^ 3) ^ (m.log2 / 3 + 1) := Nat.pow_mul ..
      _ ≤ 10 ^ (m.log2 / 3 + 1) := Nat.pow_le_pow_left (by decide) _

/-- Four hundred places are more than doubles have on either side of the point. -/
theorem two_pow_le_ten_pow {j k : Nat} (hj : j ≤ 3 * k) : 2 ^ j ≤ 10 ^ k := by
  calc 2 ^ j
      _ ≤ 2 ^ (3 * k) := Nat.pow_le_pow_right (by decide) hj
      _ = (2 ^ 3) ^ k := Nat.pow_mul ..
      _ ≤ 10 ^ k := Nat.pow_le_pow_left (by decide) k

theorem ofQuotient_large (negative : Bool) {m e : Nat} (hm : 0 < m) (he : 400 < e) :
    ofQuotient negative (m * 10 ^ e) 1 = .infinite negative := by
  have hlarge : limit ≤ m * 10 ^ e * one := by
    rw [limit_eq]
    refine Nat.mul_le_mul_right one ?_
    calc 2 ^ 1024
        _ ≤ 10 ^ e := two_pow_le_ten_pow (by omega)
        _ ≤ m * 10 ^ e := Nat.le_mul_of_pos_left _ hm
  exact dif_neg (Nat.not_lt.mpr (limit_le_roundUnits hlarge))

theorem ofQuotient_small (negative : Bool) {m e : Nat} (he : 400 + (m.log2 / 3 + 1) < e) :
    ofQuotient negative m (10 ^ e) = zero negative := by
  obtain ⟨k, hk, htwo⟩ : ∃ k, k ≤ 3 * 400 ∧ 2 * one = 2 ^ k :=
    ⟨1 + 1074, by decide, two_pow_mul_one 1⟩
  have hsmall : 2 * (m * one) < 10 ^ e := by
    calc 2 * (m * one)
        _ = m * 2 ^ k := by rw [Nat.mul_left_comm, htwo]
        _ < 10 ^ (m.log2 / 3 + 1) * 2 ^ k := Nat.mul_lt_mul_of_pos_right (lt_ten_pow m) (Nat.two_pow_pos k)
        _ ≤ 10 ^ (m.log2 / 3 + 1) * 10 ^ 400 := Nat.mul_le_mul_left _ (two_pow_le_ten_pow hk)
        _ = 10 ^ (400 + (m.log2 / 3 + 1)) := by rw [← Nat.pow_add, Nat.add_comm]
        _ ≤ 10 ^ e := Nat.pow_le_pow_right (by decide) (Nat.le_of_lt he)
  exact round_eq_zero negative (roundUnits_eq_zero hsmall)

/-! ### Values -/

/-- **A decimal number denotes the double nearest to its value,** however large its exponent. -/
theorem ofDecimal_eq (negative : Bool) (m : Nat) (e : Int) :
    ofDecimal negative m e = ofQuotient negative (m * 10 ^ e.toNat) (10 ^ (-e).toNat) := by
  rcases Nat.eq_zero_or_pos m with rfl | hm
  · have hzero : roundUnits (0 * 10 ^ e.toNat * one) (10 ^ (-e).toNat) = 0 := by
      refine roundUnits_eq_zero ?_
      rw [Nat.zero_mul, Nat.zero_mul]
      exact Nat.pow_pos (by decide)
    rw [ofDecimal, if_pos rfl, ofQuotient, round_eq_zero negative hzero]
  unfold ofDecimal
  rw [if_neg (Nat.ne_of_gt hm)]
  simp only
  split
  · next hlarge =>
    have hden : (-e).toNat = 0 := by omega
    rw [hden, Nat.pow_zero, ofQuotient_large negative hm (by omega)]
  split
  · next hsmall =>
    have hnum : e.toNat = 0 := by omega
    rw [hnum, Nat.pow_zero, Nat.mul_one, ofQuotient_small negative (by omega)]
  split
  · next hpositive =>
    have hden : (-e).toNat = 0 := by omega
    rw [hden]
    rfl
  · next hnegative =>
    have hnum : e.toNat = 0 := by omega
    rw [hnum, Nat.pow_zero, Nat.mul_one]
    rfl

/-- A power of ten may be moved from the digits to the exponent. -/
theorem ofDecimal_mul_pow (negative : Bool) (m k : Nat) (e : Int) :
    ofDecimal negative (m * 10 ^ k) (e - k) = ofDecimal negative m e := by
  rw [ofDecimal_eq, ofDecimal_eq]
  refine ofQuotient_congr negative (Nat.pow_pos (by decide)) (Nat.pow_pos (by decide)) ?_
  have hexponents : k + (e - k).toNat + (-e).toNat = e.toNat + (-(e - k)).toNat := by omega
  calc m * 10 ^ k * 10 ^ (e - k).toNat * 10 ^ (-e).toNat
      _ = m * 10 ^ (k + (e - k).toNat + (-e).toNat) := by rw [Nat.pow_add, Nat.pow_add]; ring
      _ = m * 10 ^ e.toNat * 10 ^ (-(e - k)).toNat := by rw [hexponents, Nat.pow_add]; ring

/-! ### Reading back -/

/-- Whether a decimal number reads back does not hang on the sign. -/
theorem ofDecimal_of_readsBack {d : Decimal} (h : Representable units) (reads : ReadsBack units d)
    (negative : Bool) : ofDecimal negative d.digits d.exponent = .finite negative units h := by
  unfold ReadsBack at reads
  rw [ofDecimal_eq, ofQuotient] at reads ⊢
  generalize d.digits * 10 ^ d.exponent.toNat * one = num at reads ⊢
  generalize 10 ^ (-d.exponent).toNat = den at reads ⊢
  rw [round] at reads
  split at reads
  · have hunits : (roundUnits num den : Int) = units := Option.some.inj reads
    exact round_eq_finite negative h (Int.natCast_inj.mp hunits)
  · cases reads

/-- The exact decimal number reads back. -/
theorem readsBack_exactDecimal (h : Representable units) : ReadsBack units (exactDecimal units) := by
  -- The power is left a variable, so that nothing writes it out.
  have hround : ∀ n : Nat, one = 2 ^ n → ReadsBack units ⟨units * 5 ^ n, -n⟩ := by
    intro n hone
    have hn : 5 ^ n * one = 10 ^ n := by rw [hone, ← Nat.mul_pow]
    have hnum : (-(n : Int)).toNat = 0 := by omega
    have hden : (-(-(n : Int))).toNat = n := by omega
    have hunits : roundUnits (units * 5 ^ n * one) (10 ^ n) = units := by
      rw [Nat.mul_assoc, hn]
      exact roundUnits_mul h (Nat.pow_pos (by decide))
    rw [ReadsBack, ofDecimal_eq, hnum, hden, Nat.pow_zero, Nat.mul_one, ofQuotient,
      round_eq_finite false h hunits]
    rfl
  exact hround _ one_eq

/-- **The shortest decimal number of a double reads back.** -/
theorem readsBack_shortest (h : Representable units) : ReadsBack units (shortest units) := by
  unfold shortest
  simp only
  generalize hfound : (List.range 17).findSome? _ = found
  cases found with
  | none => exact readsBack_exactDecimal h
  | some d =>
      obtain ⟨i, -, hfind⟩ := List.exists_of_findSome?_eq_some hfound
      have hreads := List.find?_some hfind
      exact of_decide_eq_true hreads

end LoadTest.Binary64
