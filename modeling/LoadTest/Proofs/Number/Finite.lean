import LoadTest.Proofs.Number.Arithmetic

/-!
# LoadTest.Proofs.Number.Finite

When arithmetic stays finite. **A bound on the magnitudes is carried along** (`Within`): it is multiplied by what
is multiplied with, and by what a divisor falls short of one.
-/

namespace LoadTest.Binary64

attribute [local irreducible] Binary64.one

variable {x y : Binary64} {a b j k n bound : Nat}

/-- A finite number of either sign, of at most so many units. -/
def Within (x : Binary64) (bound : Nat) : Prop :=
  ∃ negative units h, x = .finite negative units h ∧ units ≤ bound

theorem Within.isFinite (h : x.Within bound) : x.isFinite = true := by
  obtain ⟨-, -, -, rfl, -⟩ := h
  rfl

theorem HasUnits.within (h : x.HasUnits a) (hle : a ≤ bound) : x.Within bound := by
  obtain ⟨hrepresentable, rfl⟩ := h
  exact ⟨false, a, hrepresentable, rfl, hle⟩

theorem within_round (negative : Bool) {num den : Nat} (h : Representable bound) (hden : 0 < den)
    (hle : num ≤ bound * den) : (round negative num den).Within bound := by
  have hround := roundUnits_le h hden hle
  have hlimit : roundUnits num den < limit := Nat.lt_of_le_of_lt hround h.1
  exact ⟨negative, _, ⟨hlimit, roundUnits_eq_shift num den⟩, dif_pos hlimit, hround⟩

/-- Integers of 64 bits are finite. -/
theorem within_ofQuotient (negative : Bool) (h : n ≤ 2 ^ 64) :
    (ofQuotient negative n 1).Within (2 ^ 64 * one) :=
  within_round negative (representable_two_pow_mul_one (by decide)) Nat.one_pos (by
    rw [Nat.mul_one]
    exact Nat.mul_le_mul_right one h)

theorem isFinite_ofNat (h : n < UInt64.size) : (ofNat n).isFinite = true :=
  (within_ofQuotient false (Nat.le_of_lt h)).isFinite

theorem Within.mul (hjk : j + k < 971) (hx : x.Within (2 ^ j * one)) (hy : y.Within (2 ^ k * one)) :
    (x * y).Within (2 ^ (j + k) * one) := by
  obtain ⟨s, m, hm, rfl, hmle⟩ := hx
  obtain ⟨t, n, hn, rfl, hnle⟩ := hy
  refine within_round (s ^^ t) (representable_two_pow_mul_one hjk) one_pos ?_
  calc m * n
      _ ≤ (2 ^ j * one) * (2 ^ k * one) := Nat.mul_le_mul hmle hnle
      _ = 2 ^ (j + k) * one * one := by rw [Nat.pow_add]; ring

theorem Within.div (hjk : j + k < 971) (hx : x.Within (2 ^ j * one)) (hy : y.HasUnits n)
    (large : one ≤ 2 ^ k * n) : (x / y).Within (2 ^ (j + k) * one) := by
  have hpos : 0 < n := Nat.pos_of_mul_pos_left (Nat.lt_of_lt_of_le one_pos large)
  obtain ⟨s, m, hm, rfl, hmle⟩ := hx
  obtain ⟨hn, rfl⟩ := hy
  have hquotient : (Binary64.finite s m hm / Binary64.finite false n hn) = round (s ^^ false) (m * one) n :=
    if_neg (Nat.ne_of_gt hpos)
  rw [hquotient]
  refine within_round _ (representable_two_pow_mul_one hjk) hpos ?_
  calc m * one
      _ ≤ (2 ^ j * one) * (2 ^ k * n) := Nat.mul_le_mul hmle large
      _ = 2 ^ (j + k) * one * n := by rw [Nat.pow_add]; ring

theorem isFinite_neg (h : x.isFinite = true) : (-x).isFinite = true := by
  cases x with
  | finite => rfl
  | _ => cases h

/-- A finite number stays finite when it is divided by one or more. -/
theorem isFinite_div (hx : x.isFinite = true) (hy : y.HasUnits n) (large : one ≤ n) :
    (x / y).isFinite = true := by
  have hpos : 0 < n := Nat.lt_of_lt_of_le one_pos large
  obtain ⟨hn, rfl⟩ := hy
  cases x with
  | finite s m hm =>
      have hquotient : (Binary64.finite s m hm / Binary64.finite false n hn) = round (s ^^ false) (m * one) n :=
        if_neg (Nat.ne_of_gt hpos)
      rw [hquotient]
      exact (within_round _ hm hpos (Nat.mul_le_mul_left m large)).isFinite
  | _ => cases hx

/-- A finite number stays finite when it is divided by a natural number, however large. -/
theorem isFinite_div_ofNat (hx : x.isFinite = true) (hpos : 0 < n) : (x / ofNat n).isFinite = true := by
  by_cases h : roundUnits (n * one) 1 < limit
  · exact isFinite_div hx (hasUnits_ofNat h) (le_roundUnits_ofNat hpos)
  · have hinfinite : ofNat n = .infinite false := dif_neg h
    cases x with
    | finite => rw [hinfinite]; rfl
    | _ => cases hx

/-- Powers of ten up to the greatest that is finite. -/
theorem hasUnits_pow_ten (h : k ≤ 308) : ∃ n, (ofNat (Nat.pow 10 k)).HasUnits n ∧ one ≤ n := by
  have hlarge : one ≤ roundUnits (10 ^ k * one) 1 := le_roundUnits_ofNat (Nat.pow_pos (by decide))
  obtain ⟨greatest, hk, hgreatest⟩ : ∃ m, k ≤ m ∧ roundUnits (10 ^ m * one) 1 < limit :=
    ⟨308, h, by decide +kernel⟩
  have hle : roundUnits (10 ^ k * one) 1 ≤ roundUnits (10 ^ greatest * one) 1 :=
    roundUnits_mono Nat.one_pos Nat.one_pos (by gcongr; decide)
  exact ⟨_, hasUnits_ofNat (Nat.lt_of_le_of_lt hle hgreatest), hlarge⟩

theorem isFinite_div_pow_ten (hx : x.isFinite = true) (h : k ≤ 308) :
    (x / ofNat (Nat.pow 10 k)).isFinite = true := by
  obtain ⟨n, hn, hlarge⟩ := hasUnits_pow_ten h
  exact isFinite_div hx hn hlarge

/-- What lies between finite numbers is finite. -/
theorem isFinite_of_between {z : Binary64} (hx : x.isFinite = true) (hz : z.isFinite = true) (low : x ≤ y)
    (high : y ≤ z) : y.isFinite = true := by
  change x.le y = true at low
  change y.le z = true at high
  cases y with
  | finite => rfl
  | nan => cases high
  | infinite negative =>
      cases x with
      | finite =>
          cases z with
          | finite => cases negative <;> simp [le, position?, Position.le] at low high
          | _ => cases hz
      | _ => cases hx

end LoadTest.Binary64
