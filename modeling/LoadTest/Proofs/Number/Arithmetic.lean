import LoadTest.Proofs.Number.Rounding

/-!
# LoadTest.Proofs.Number.Arithmetic

Arithmetic on doubles that are not negative. **Each operation is the exact one followed by rounding**
(`HasUnits.add` and so on), so what is to be known of a result is known of rounding: it keeps what can be
represented, it never passes a number that can be (`roundUnits_le`, `le_roundUnits`), and it errs by half a
last place at most (`roundUnits_mul_le`).
-/

namespace LoadTest

theorem two_mul_roundDiv_mul_le (num den : Nat) : 2 * (roundDiv num den * den) ≤ 2 * num + den := by
  have hsplit := Nat.div_add_mod num den
  rw [Nat.mul_comm den] at hsplit
  unfold roundDiv
  split
  · next h =>
    rw [Nat.add_mul, Nat.one_mul]
    omega
  · omega

namespace Binary64

variable {num den units : Nat}

/-! ### Numbers that can be represented -/

theorem one_shiftLeft (s : Nat) : 1 <<< s = 2 ^ s := Nat.one_shiftLeft s

theorem one_eq : one = 2 ^ 1074 := one_shiftLeft 1074

theorem one_pos : 0 < one := one_shiftLeft_pos _

-- The number of units in one has a thousand binary digits, and no step below is to write them out.
attribute [local irreducible] one

theorem two_pow_mul_one (k : Nat) : 2 ^ k * one = 2 ^ (k + 1074) := by
  rw [one_eq, Nat.pow_add]

theorem limit_eq : limit = 2 ^ 1024 * one := by
  rw [two_pow_mul_one, ← one_shiftLeft, limit]

theorem mul_two_pow_lt {m s e : Nat} (hm : m ≤ 2 ^ 53) (hs : 53 + s < e) : m * 2 ^ s < 2 ^ e := by
  calc m * 2 ^ s
      _ ≤ 2 ^ 53 * 2 ^ s := Nat.mul_le_mul_right _ hm
      _ = 2 ^ (53 + s) := (Nat.pow_add ..).symm
      _ < 2 ^ e := Nat.pow_lt_pow_right (by decide) hs

/-- A multiple of a power of two with 53 binary digits can be represented; so can the next power. -/
theorem representable_mul_two_pow {m s : Nat} (hm : m ≤ 2 ^ 53) (hlimit : m * 2 ^ s < limit) :
    Representable (m * 2 ^ s) := by
  refine ⟨hlimit, ?_⟩
  rcases Nat.lt_or_eq_of_le hm with hlt | rfl
  · exact ⟨m, s, by simpa [Nat.shiftLeft_eq] using hlt, (Nat.shiftLeft_eq ..).symm⟩
  · exact ⟨2 ^ 52, s + 1, by decide, by rw [Nat.shiftLeft_eq]; ring⟩

/-- Whole numbers of up to 53 binary digits, times a power of two. -/
theorem representable_mul_one {m s : Nat} (hm : m ≤ 2 ^ 53) (hs : s < 971) :
    Representable (m * 2 ^ s * one) := by
  have hlimit : m * 2 ^ s * one < limit := by
    rw [limit_eq]
    exact Nat.mul_lt_mul_of_pos_right (mul_two_pow_lt hm (by omega)) one_pos
  rw [Nat.mul_assoc, two_pow_mul_one] at hlimit ⊢
  exact representable_mul_two_pow hm hlimit

theorem representable_two_pow_mul_one {k : Nat} (hk : k < 971) : Representable (2 ^ k * one) := by
  simpa using representable_mul_one (m := 1) (by decide) hk

theorem representable_one : Representable one := by
  simpa using representable_two_pow_mul_one (k := 0) (by decide)

theorem one_lt_limit : one < limit := representable_one.1

/-- Below a power of two there is room for one more last place. -/
theorem add_two_pow_le {k : Nat} (h : Representable units) (hlt : units < 2 ^ (k + 53)) :
    units + 2 ^ k ≤ 2 ^ (k + 53) := by
  obtain ⟨-, m, s, hm, rfl⟩ := h
  simp only [Nat.shiftLeft_eq, Nat.one_mul] at hm hlt ⊢
  rcases Nat.lt_or_ge s k with hless | hge
  · obtain ⟨t, rfl⟩ := Nat.exists_eq_add_of_lt hless
    have hle : m * 2 ^ s ≤ 2 ^ 53 * 2 ^ (s + t) :=
      Nat.mul_le_mul (Nat.le_of_lt hm) (Nat.pow_le_pow_right (by decide) (by omega))
    rw [Nat.pow_add _ _ 53, Nat.pow_succ]
    omega
  · obtain ⟨t, rfl⟩ := Nat.exists_eq_add_of_le hge
    have hsplit : m * 2 ^ (k + t) = 2 ^ k * (m * 2 ^ t) := by
      rw [Nat.pow_add]
      ring
    rw [hsplit, Nat.pow_add] at hlt ⊢
    calc 2 ^ k * (m * 2 ^ t) + 2 ^ k
        _ = 2 ^ k * (m * 2 ^ t + 1) := by ring
        _ ≤ 2 ^ k * 2 ^ 53 := Nat.mul_le_mul_left _ (Nat.lt_of_mul_lt_mul_left hlt)

theorem add_two_pow_mul_one_le {k : Nat} (h : Representable units) (hlt : units < 2 ^ (k + 53) * one) :
    units + 2 ^ k * one ≤ 2 ^ (k + 53) * one := by
  rw [two_pow_mul_one] at *
  rw [two_pow_mul_one, Nat.add_right_comm] at *
  exact add_two_pow_le h hlt

theorem add_two_pow_le_one {k : Nat} (h : Representable units) (hlt : units < one) (hk : k + 53 = 1074) :
    units + 2 ^ k ≤ one := by
  have hone : one = 2 ^ (k + 53) := by rw [one_eq, hk]
  rw [hone] at hlt ⊢
  exact add_two_pow_le h hlt

theorem representable_mod_two_pow (h : Representable units) (e : Nat) : Representable (units % 2 ^ e) := by
  obtain ⟨hlimit, m, s, hm, rfl⟩ := h
  refine ⟨Nat.lt_of_le_of_lt (Nat.mod_le ..) hlimit, ?_⟩
  simp only [Nat.shiftLeft_eq, Nat.one_mul] at hm ⊢
  rcases Nat.le_total s e with hle | hle
  · obtain ⟨t, rfl⟩ := Nat.exists_eq_add_of_le hle
    refine ⟨m % 2 ^ t, s, Nat.lt_of_le_of_lt (Nat.mod_le ..) hm, ?_⟩
    rw [Nat.add_comm s, Nat.pow_add, Nat.mul_mod_mul_right]
  · refine ⟨0, 0, Nat.two_pow_pos 53, ?_⟩
    rw [Nat.zero_mul]
    exact Nat.mod_eq_zero_of_dvd (Nat.dvd_mul_left_of_dvd (Nat.pow_dvd_pow 2 hle) m)

/-- What is beyond the whole part of a number has no more digits than the number. -/
theorem representable_mod_one (h : Representable units) : Representable (units % one) := by
  rw [one_eq]
  exact representable_mod_two_pow h _

/-- A number that can be represented is a whole number of its last place. -/
theorem lastPlace_dvd (h : Representable units) : lastPlace units ∣ units := by
  obtain ⟨-, m, s, hm, rfl⟩ := h
  rw [lastPlace_eq]
  simp only [Nat.shiftLeft_eq, Nat.one_mul] at hm ⊢
  refine Nat.dvd_trans (Nat.pow_dvd_pow 2 ?_) (Nat.dvd_mul_left ..)
  rcases Nat.eq_zero_or_pos m with rfl | hpos
  · simp
  · have hlog : (m * 2 ^ s).log2 < 53 + s := by
      refine (Nat.log2_lt (Nat.mul_pos hpos (Nat.two_pow_pos s)).ne').mpr ?_
      rw [Nat.pow_add]
      exact Nat.mul_lt_mul_of_pos_right hm (Nat.two_pow_pos s)
    omega

/-- **Nothing is lost of what can be represented.** -/
theorem roundUnits_mul (h : Representable units) (hden : 0 < den) :
    roundUnits (units * den) den = units := by
  obtain ⟨places, hplaces⟩ := lastPlace_dvd h
  unfold roundUnits
  rw [Nat.mul_div_cancel _ hden]
  have hmul : units * den = places * (den * lastPlace units) := by
    calc units * den
        _ = lastPlace units * places * den := by rw [← hplaces]
        _ = places * (den * lastPlace units) := by ring
  rw [hmul, roundDiv_mul_left _ (Nat.mul_pos hden (lastPlace_pos _)), Nat.mul_comm]
  exact hplaces.symm

@[simp] theorem roundUnits_zero (den : Nat) : roundUnits 0 den = 0 := by
  simp [roundUnits, roundDiv]

theorem roundUnits_one (h : Representable units) : roundUnits units 1 = units := by
  simpa using roundUnits_mul h Nat.one_pos

/-- A quotient is not rounded beyond a number that can be represented and is not below it. -/
theorem roundUnits_le (h : Representable units) (hden : 0 < den) (hle : num ≤ units * den) :
    roundUnits num den ≤ units := by
  have hmono := roundUnits_mono hden hden (Nat.mul_le_mul_right den hle)
  rwa [roundUnits_mul h hden] at hmono

/-- A quotient is not rounded below a number that can be represented and is not beyond it. -/
theorem le_roundUnits (h : Representable units) (hden : 0 < den) (hle : units * den ≤ num) :
    units ≤ roundUnits num den := by
  have hmono := roundUnits_mono hden hden (Nat.mul_le_mul_right den hle)
  rwa [roundUnits_mul h hden] at hmono

theorem le_roundUnits_ofNat {n : Nat} (hn : 0 < n) : one ≤ roundUnits (n * one) 1 := by
  refine le_roundUnits representable_one Nat.one_pos ?_
  rw [Nat.mul_one]
  exact Nat.le_mul_of_pos_left one hn

theorem dvd_lastPlace {k : Nat} (h : 2 ^ (k + 52) * one ≤ units) : 2 ^ k * one ∣ lastPlace units := by
  have hlog := log2_mono h
  rw [two_pow_mul_one, Nat.log2_two_pow] at hlog
  rw [two_pow_mul_one, lastPlace_eq]
  exact Nat.pow_dvd_pow 2 (by omega)

theorem le_lastPlace {k : Nat} (h : 2 ^ (k + 52) * one ≤ units) : 2 ^ k * one ≤ lastPlace units :=
  Nat.le_of_dvd (lastPlace_pos units) (dvd_lastPlace h)

/-- From `2 ^ 52` on there are only whole numbers. -/
theorem one_dvd (h : Representable units) (large : 2 ^ 52 * one ≤ units) : one ∣ units := by
  have hplace : 2 ^ 0 * one ∣ lastPlace units := dvd_lastPlace large
  rw [Nat.pow_zero, Nat.one_mul] at hplace
  exact Nat.dvd_trans hplace (lastPlace_dvd h)

/-- Less than half a last place makes no difference. -/
theorem roundUnits_add {rest : Nat} (h : Representable units) (small : 2 * rest < lastPlace units) :
    roundUnits (units + rest) 1 = units := by
  obtain ⟨places, hplaces⟩ := lastPlace_dvd h
  have hplace := lastPlace_pos units
  -- The next power of two is a whole number of last places, so the sum does not get there.
  have hlog : (units + rest).log2 = units.log2 := by
    rcases Nat.eq_zero_or_pos units with rfl | hpos
    · have hone : lastPlace 0 = 1 := by decide
      rw [show rest = 0 by omega]
    · have hlow : 2 ^ units.log2 ≤ units := Nat.log2_self_le hpos.ne'
      have hhigh : units < 2 ^ (units.log2 + 1) := Nat.lt_log2_self
      have hsplit : 2 ^ (units.log2 + 1 - (units.log2 - 52)) * lastPlace units = 2 ^ (units.log2 + 1) :=
        two_pow_mul_lastPlace (by omega)
      rw [← hsplit] at hhigh
      have hnext : units + lastPlace units ≤ 2 ^ (units.log2 + 1) := by
        rw [← hsplit]
        generalize 2 ^ (units.log2 + 1 - (units.log2 - 52)) = top at hhigh ⊢
        generalize lastPlace units = place at *
        rw [hplaces, Nat.mul_comm] at hhigh ⊢
        calc places * place + place
            _ = (places + 1) * place := by ring
            _ ≤ top * place := Nat.mul_le_mul_right _ (Nat.lt_of_mul_lt_mul_right hhigh)
      exact (Nat.log2_eq_iff (by omega)).mpr ⟨by omega, by omega⟩
  have hsame : lastPlace (units + rest) = lastPlace units := by rw [lastPlace_eq, lastPlace_eq, hlog]
  have hround : roundDiv (units + rest) (lastPlace units) = places := by
    generalize lastPlace units = place at *
    subst hplaces
    have hdiv : (place * places + rest) / place = places := by
      rw [Nat.mul_add_div hplace, Nat.div_eq_of_lt (by omega), Nat.add_zero]
    have hmod : (place * places + rest) % place = rest := by
      rw [Nat.mul_add_mod, Nat.mod_eq_of_lt (by omega)]
    rw [roundDiv, hdiv, hmod, if_neg (by omega)]
  rw [roundUnits, Nat.div_one, Nat.one_mul, hsame, hround, Nat.mul_comm]
  exact hplaces.symm

/-- A rounded number is the whole number of last places that its quotient by one is rounded to. -/
theorem roundDiv_mul_lastPlace (num den : Nat) :
    roundDiv num (den * lastPlace (num / den)) * (den * lastPlace (num / den)) = roundUnits num den * den := by
  unfold roundUnits
  ring

/-- **Rounding errs by half a last place,** which is `2 ^ k` below `2 ^ (k + 54)`. -/
theorem roundUnits_mul_le {k : Nat} (h : num / den < 2 ^ (k + 54) * one) :
    roundUnits num den * den ≤ num + den * (2 ^ k * one) := by
  have hplace : lastPlace (num / den) ≤ 2 * (2 ^ k * one) := by
    rw [two_pow_mul_one] at h ⊢
    rw [lastPlace_eq, ← Nat.pow_succ']
    refine Nat.pow_le_pow_right (by decide) ?_
    rcases Nat.eq_zero_or_pos (num / den) with hzero | hpos
    · simp [hzero]
    · have hlog := (Nat.log2_lt hpos.ne').mpr h
      omega
  have herror := two_mul_roundDiv_mul_le num (den * lastPlace (num / den))
  rw [roundDiv_mul_lastPlace] at herror
  have hhalf : den * lastPlace (num / den) ≤ 2 * (den * (2 ^ k * one)) := by
    calc den * lastPlace (num / den)
        _ ≤ den * (2 * (2 ^ k * one)) := Nat.mul_le_mul_left den hplace
        _ = 2 * (den * (2 ^ k * one)) := by ring
  omega

/-! ### Operations -/

/-- The double is not negative and of so many units. -/
def HasUnits (x : Binary64) (units : Nat) : Prop := ∃ h, x = .finite false units h

variable {x y : Binary64} {a b : Nat}

theorem HasUnits.representable (h : x.HasUnits a) : Representable a := h.1

theorem HasUnits.isFinite (h : x.HasUnits a) : x.isFinite = true := by
  obtain ⟨-, rfl⟩ := h
  rfl

theorem HasUnits.isNaN (h : x.HasUnits a) : x.isNaN = false := by
  obtain ⟨-, rfl⟩ := h
  rfl

theorem hasUnits_round (h : roundUnits num den < limit) :
    (round false num den).HasUnits (roundUnits num den) := by
  refine ⟨⟨h, roundUnits_eq_shift num den⟩, ?_⟩
  rw [round, dif_pos h]

theorem hasUnits_ofNat {n : Nat} (h : roundUnits (n * one) 1 < limit) :
    (ofNat n).HasUnits (roundUnits (n * one) 1) := hasUnits_round h

/-- Natural numbers of up to 53 binary digits are doubles. -/
theorem hasUnits_ofNat_of_le {n : Nat} (h : n ≤ 2 ^ 53) : (ofNat n).HasUnits (n * one) := by
  have hrepresentable : Representable (n * one) := by
    simpa using representable_mul_one (s := 0) h (by decide)
  have hround := roundUnits_one hrepresentable
  have hunits := hasUnits_ofNat (n := n) (by rw [hround]; exact hrepresentable.1)
  rwa [hround] at hunits

theorem hasUnits_zero : (0 : Binary64).HasUnits 0 := by
  have hunits : (ofNat 0).HasUnits (0 * one) := hasUnits_ofNat_of_le (by decide)
  rwa [Nat.zero_mul] at hunits

theorem ofUnits_natCast (n : Nat) : ofUnits false n = round false n 1 := by
  rw [ofUnits, Int.natAbs_natCast]
  congr 1
  split
  · rfl
  · exact decide_eq_false (Int.not_lt.mpr (Int.natCast_nonneg n))

theorem HasUnits.add (hx : x.HasUnits a) (hy : y.HasUnits b) (h : roundUnits (a + b) 1 < limit) :
    (x + y).HasUnits (roundUnits (a + b) 1) := by
  obtain ⟨ha, rfl⟩ := hx
  obtain ⟨hb, rfl⟩ := hy
  have hsum : (Binary64.finite false a ha + Binary64.finite false b hb) = round false (a + b) 1 := by
    change Binary64.add _ _ = _
    rw [Binary64.add, if_neg Bool.false_ne_true, if_neg Bool.false_ne_true, ← Int.natCast_add, Bool.and_self,
      ofUnits_natCast]
  rw [hsum]
  exact hasUnits_round h

theorem HasUnits.sub_eq (hx : x.HasUnits a) (hy : y.HasUnits b) (hle : b ≤ a) :
    x - y = Binary64.round false (a - b) 1 := by
  obtain ⟨ha, rfl⟩ := hx
  obtain ⟨hb, rfl⟩ := hy
  change Binary64.add _ (Binary64.finite true b hb) = _
  rw [Binary64.add, if_neg Bool.false_ne_true, if_pos rfl, Bool.false_and, ← ofUnits_natCast, Int.natCast_sub hle,
    Int.sub_eq_add_neg]

/-- The difference of a number and one that is not greater. -/
theorem HasUnits.sub (hx : x.HasUnits a) (hy : y.HasUnits b) (hle : b ≤ a) :
    (x - y).HasUnits (roundUnits (a - b) 1) := by
  rw [hx.sub_eq hy hle]
  exact hasUnits_round
    (Nat.lt_of_le_of_lt (roundUnits_le hx.representable Nat.one_pos (by omega)) hx.representable.1)

theorem HasUnits.mul (hx : x.HasUnits a) (hy : y.HasUnits b) (h : roundUnits (a * b) one < limit) :
    (x * y).HasUnits (roundUnits (a * b) one) := by
  obtain ⟨ha, rfl⟩ := hx
  obtain ⟨hb, rfl⟩ := hy
  change (Binary64.mul _ _).HasUnits _
  rw [Binary64.mul]
  exact hasUnits_round h

theorem HasUnits.div (hx : x.HasUnits a) (hy : y.HasUnits b) (hpos : 0 < b)
    (h : roundUnits (a * one) b < limit) : (x / y).HasUnits (roundUnits (a * one) b) := by
  obtain ⟨ha, rfl⟩ := hx
  obtain ⟨hb, rfl⟩ := hy
  have hquotient : (Binary64.finite false a ha / Binary64.finite false b hb) = round false (a * one) b := by
    change Binary64.div _ _ = _
    rw [Binary64.div, if_neg hpos.ne', Bool.xor_false]
  rw [hquotient]
  exact hasUnits_round h

theorem neg_round (negative : Bool) (num den : Nat) :
    -Binary64.round negative num den = Binary64.round (!negative) num den := by
  change Binary64.neg _ = _
  unfold Binary64.round
  split <;> rfl

/-- The sign has no part in the rounding of a product. -/
theorem HasUnits.neg_mul (hx : x.HasUnits a) (hy : y.HasUnits b) : -x * y = -(x * y) := by
  obtain ⟨ha, rfl⟩ := hx
  obtain ⟨hb, rfl⟩ := hy
  exact (neg_round false (a * b) one).symm

/-- Nor has it one in that of a difference. -/
theorem HasUnits.sub_eq_neg (hx : x.HasUnits a) (hy : y.HasUnits b) (h : a < b) : x - y = -(y - x) := by
  rw [hy.sub_eq hx (Nat.le_of_lt h), neg_round]
  obtain ⟨ha, rfl⟩ := hx
  obtain ⟨hb, rfl⟩ := hy
  have hdifference : (a : Int) + -(b : Int) = -((b - a : Nat) : Int) := by omega
  change Binary64.add _ (Binary64.finite true b hb) = _
  rw [Binary64.add, if_neg Bool.false_ne_true, if_pos rfl, hdifference, ofUnits, Int.natAbs_neg, Int.natAbs_natCast,
    if_neg (by omega), decide_eq_true (by omega)]
  rfl

theorem round_zero (negative : Bool) (den : Nat) : Binary64.round negative 0 den = zero negative := by
  simp [Binary64.round, zero, limit_pos]

/-- Zero keeps its sign where it is multiplied or divided by a number that has none. -/
theorem HasUnits.zero_mul (hy : y.HasUnits b) (negative : Bool) : zero negative * y = zero negative := by
  obtain ⟨hb, rfl⟩ := hy
  change Binary64.mul _ _ = _
  rw [zero, Binary64.mul, Nat.zero_mul, Bool.xor_false, round_zero, zero]

theorem HasUnits.zero_div (hy : y.HasUnits b) (hpos : 0 < b) (negative : Bool) :
    zero negative / y = zero negative := by
  obtain ⟨hb, rfl⟩ := hy
  change Binary64.div _ _ = _
  rw [zero, Binary64.div, if_neg hpos.ne', Nat.zero_mul, Bool.xor_false, round_zero, zero]

theorem HasUnits.le_iff (hx : x.HasUnits a) (hy : y.HasUnits b) : x ≤ y ↔ a ≤ b := by
  obtain ⟨ha, rfl⟩ := hx
  obtain ⟨hb, rfl⟩ := hy
  change decide ((a : Int) ≤ (b : Int)) = true ↔ a ≤ b
  simp

theorem HasUnits.lt_iff (hx : x.HasUnits a) (hy : y.HasUnits b) : x < y ↔ a < b := by
  obtain ⟨ha, rfl⟩ := hx
  obtain ⟨hb, rfl⟩ := hy
  change (!decide ((b : Int) ≤ (a : Int))) = true ↔ a < b
  simp

theorem HasUnits.eq_self (hx : x.HasUnits a) : x.eq x = true := by
  rw [Binary64.eq, Bool.and_self]
  exact (hx.le_iff hx).mpr (Nat.le_refl a)

/-- Numbers that are equal have the same units; zero has either sign. -/
theorem HasUnits.exists_sign (hy : y.HasUnits b) (h : x.eq y = true) :
    ∃ negative hb, x = .finite negative b hb ∧ (0 < b → negative = false) := by
  obtain ⟨hb, rfl⟩ := hy
  cases x with
  | nan => cases h
  | infinite negative => cases negative <;> cases h
  | finite negative a ha =>
      have hunits : (if negative then -(a : Int) else (a : Int)) = b := by
        obtain ⟨hle, hge⟩ := (Bool.and_eq_true _ _).mp h
        exact Int.le_antisymm (of_decide_eq_true hle) (of_decide_eq_true hge)
      obtain rfl : a = b := by
        split at hunits <;> omega
      refine ⟨negative, ha, rfl, fun hpos => Bool.eq_false_iff.mpr ?_⟩
      rintro rfl
      rw [if_pos rfl] at hunits
      omega

/-- Numbers that are equal are the same, zeros apart. -/
theorem HasUnits.eq_of_eq (hy : y.HasUnits b) (hpos : 0 < b) (h : x.eq y = true) : x = y := by
  obtain ⟨negative, hb, rfl, hsign⟩ := hy.exists_sign h
  obtain ⟨-, rfl⟩ := hy
  rw [hsign hpos]

theorem eq_ofNat_iff {n : Nat} (hpos : 0 < n) (hle : n ≤ 2 ^ 53) : x.eq (ofNat n) = true ↔ x = ofNat n := by
  have hunits := hasUnits_ofNat_of_le hle
  refine ⟨hunits.eq_of_eq (Nat.mul_pos hpos one_pos), ?_⟩
  rintro rfl
  exact hunits.eq_self

theorem HasUnits.toNatBelow (h : x.HasUnits a) (bound : Nat) :
    x.toNatBelow bound = min (a / one) (bound - 1) := by
  obtain ⟨-, rfl⟩ := h
  rw [Binary64.toNatBelow, if_neg Bool.false_ne_true]

theorem HasUnits.ceilBelow (h : x.HasUnits a) (bound : Nat) :
    x.ceilBelow bound = min ((a + (one - 1)) / one) (bound - 1) := by
  obtain ⟨-, rfl⟩ := h
  rw [Binary64.ceilBelow, if_neg Bool.false_ne_true]

end Binary64

end LoadTest
