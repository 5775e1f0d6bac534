import LoadTest.Number.Binary64
import Mathlib.Tactic.Linarith
import Mathlib.Tactic.Ring

/-!
# LoadTest.Proofs.Number.Rounding

Rounding to doubles keeps order. **A greater quotient never becomes a smaller double,** neither where both
are rounded to the same last place nor where the greater one has a coarser last place: between those two
stands a power of two, which neither passes (`Binary64.roundUnits_mono`). Order on doubles is order on
positions, with `nan` beside it.
-/

namespace LoadTest

/-! ### Whole numbers -/

theorem div_le_div_of_cross {a b c d : Nat} (hd : 0 < d) (h : a * d ≤ c * b) : a / b ≤ c / d := by
  rcases Nat.eq_zero_or_pos b with rfl | hb
  · simp
  rw [Nat.le_div_iff_mul_le hd]
  refine Nat.le_of_mul_le_mul_right ?_ hb
  calc a / b * d * b
      _ = a / b * b * d := by ring
      _ ≤ a * d := Nat.mul_le_mul_right d (Nat.div_mul_le_self a b)
      _ ≤ c * b := h

/-- A quotient is beyond the middle of two whole numbers, or in the middle above an odd one. -/
def RoundsUp (num den : Nat) : Prop :=
  (2 * (num / den) + 1) * den < 2 * num
    ∨ ((2 * (num / den) + 1) * den = 2 * num ∧ num / den % 2 = 1)

theorem roundDiv_of_roundsUp {num den : Nat} (h : RoundsUp num den) :
    roundDiv num den = num / den + 1 := by
  have hsplit := Nat.div_add_mod num den
  have hmiddle : (2 * (num / den) + 1) * den = 2 * (den * (num / den)) + den := by ring
  rw [roundDiv, if_pos]
  rcases h with hlt | ⟨heq, hodd⟩
  · exact .inl (by omega)
  · exact .inr ⟨by omega, hodd⟩

theorem roundDiv_of_not_roundsUp {num den : Nat} (h : ¬ RoundsUp num den) :
    roundDiv num den = num / den := by
  have hsplit := Nat.div_add_mod num den
  have hmiddle : (2 * (num / den) + 1) * den = 2 * (den * (num / den)) + den := by ring
  rw [roundDiv, if_neg]
  rintro (hlt | ⟨heq, hodd⟩)
  · exact h (.inl (by omega))
  · exact h (.inr ⟨by omega, hodd⟩)

/-- Of two quotients between the same whole numbers the greater one is rounded up if the other is. -/
theorem RoundsUp.mono {a b c d : Nat} (hb : 0 < b) (hd : 0 < d) (h : a * d ≤ c * b)
    (hsame : a / b = c / d) (hup : RoundsUp a b) : RoundsUp c d := by
  unfold RoundsUp at hup ⊢
  rw [hsame] at hup
  generalize 2 * (c / d) + 1 = middle at hup ⊢
  have hcross : 2 * a * d ≤ 2 * c * b := by linarith
  rcases hup with hlt | ⟨heq, hodd⟩
  · refine .inl (Nat.lt_of_mul_lt_mul_right (a := b) ?_)
    calc middle * d * b
        _ = middle * b * d := by ring
        _ < 2 * a * d := Nat.mul_lt_mul_of_pos_right hlt hd
        _ ≤ 2 * c * b := hcross
  · refine (Nat.lt_or_eq_of_le (Nat.le_of_mul_le_mul_right (a := middle * d) ?_ hb)).imp id fun heq =>
      ⟨heq, hodd⟩
    calc middle * d * b
        _ = middle * b * d := by ring
        _ = 2 * a * d := by rw [heq]
        _ ≤ 2 * c * b := hcross

theorem roundDiv_mono {a b c d : Nat} (hb : 0 < b) (hd : 0 < d) (h : a * d ≤ c * b) :
    roundDiv a b ≤ roundDiv c d := by
  rcases Nat.lt_or_eq_of_le (div_le_div_of_cross hd h) with hlt | hsame
  · calc roundDiv a b
        _ ≤ a / b + 1 := roundDiv_le a b
        _ ≤ c / d := hlt
        _ ≤ roundDiv c d := le_roundDiv c d
  · by_cases hup : RoundsUp a b
    · rw [roundDiv_of_roundsUp hup, roundDiv_of_roundsUp (hup.mono hb hd h hsame), hsame]
    · rw [roundDiv_of_not_roundsUp hup, hsame]
      exact le_roundDiv c d

namespace Binary64

/-! ### The last place -/

theorem lastPlace_eq (units : Nat) : lastPlace units = 2 ^ (units.log2 - 52) := by
  rw [lastPlace, Nat.shiftLeft_eq, Nat.one_mul]

theorem lastPlace_pos (units : Nat) : 0 < lastPlace units := one_shiftLeft_pos _

theorem log2_mono {a b : Nat} (h : a ≤ b) : a.log2 ≤ b.log2 := by
  rcases Nat.eq_zero_or_pos a with rfl | ha
  · simp
  rw [Nat.le_log2 (by omega)]
  exact Nat.le_trans (Nat.log2_self_le (by omega)) h

/-- A power of two that is not below the last place is a whole number of it. -/
theorem two_pow_mul_lastPlace {units e : Nat} (h : units.log2 - 52 ≤ e) :
    2 ^ (e - (units.log2 - 52)) * lastPlace units = 2 ^ e := by
  rw [lastPlace_eq, ← Nat.pow_add, Nat.sub_add_cancel h]

/-- No magnitude is rounded beyond the next power of two. -/
theorem roundUnits_le_two_pow {num den e : Nat} (h : num / den < 2 ^ e)
    (hplace : (num / den).log2 - 52 ≤ e) : roundUnits num den ≤ 2 ^ e := by
  have hsplit := two_pow_mul_lastPlace hplace
  have hlt : num / (den * lastPlace (num / den)) < 2 ^ (e - ((num / den).log2 - 52)) := by
    rwa [← Nat.div_div_eq_div_mul, Nat.div_lt_iff_lt_mul (lastPlace_pos _), hsplit]
  calc roundUnits num den
      _ ≤ (num / (den * lastPlace (num / den)) + 1) * lastPlace (num / den) :=
          Nat.mul_le_mul_right _ (roundDiv_le ..)
      _ ≤ 2 ^ (e - ((num / den).log2 - 52)) * lastPlace (num / den) := Nat.mul_le_mul_right _ hlt
      _ = 2 ^ e := hsplit

/-- No magnitude is rounded to less than the last power of two before it. -/
theorem two_pow_le_roundUnits {num den e : Nat} (h : 2 ^ e ≤ num / den)
    (hplace : (num / den).log2 - 52 ≤ e) : 2 ^ e ≤ roundUnits num den := by
  have hsplit := two_pow_mul_lastPlace hplace
  have hle : 2 ^ (e - ((num / den).log2 - 52)) ≤ num / (den * lastPlace (num / den)) := by
    rwa [← Nat.div_div_eq_div_mul, Nat.le_div_iff_mul_le (lastPlace_pos _), hsplit]
  calc 2 ^ e
      _ = 2 ^ (e - ((num / den).log2 - 52)) * lastPlace (num / den) := hsplit.symm
      _ ≤ num / (den * lastPlace (num / den)) * lastPlace (num / den) := Nat.mul_le_mul_right _ hle
      _ ≤ roundUnits num den := Nat.mul_le_mul_right _ (le_roundDiv ..)

/-- **Rounding a magnitude keeps order.** -/
theorem roundUnits_mono {a b c d : Nat} (hb : 0 < b) (hd : 0 < d) (h : a * d ≤ c * b) :
    roundUnits a b ≤ roundUnits c d := by
  have hle := div_le_div_of_cross hd h
  by_cases hplace : (a / b).log2 - 52 = (c / d).log2 - 52
  · -- Both have the same last place, so what counts is the number of it.
    have hsame : lastPlace (a / b) = lastPlace (c / d) := by rw [lastPlace_eq, lastPlace_eq, hplace]
    unfold roundUnits
    rw [hsame]
    refine Nat.mul_le_mul_right _ (roundDiv_mono (Nat.mul_pos hb (lastPlace_pos _))
      (Nat.mul_pos hd (lastPlace_pos _)) ?_)
    calc a * (d * lastPlace (c / d))
        _ = a * d * lastPlace (c / d) := by ring
        _ ≤ c * b * lastPlace (c / d) := Nat.mul_le_mul_right _ h
        _ = c * (b * lastPlace (c / d)) := by ring
  · have hlog := log2_mono hle
    have hne : c / d ≠ 0 := by
      intro hzero
      rw [hzero, Nat.le_zero] at hle
      exact hplace (by rw [hle, hzero])
    have hbelow : a / b < 2 ^ (c / d).log2 :=
      Nat.lt_of_lt_of_le Nat.lt_log2_self (Nat.pow_le_pow_right (by decide) (by omega))
    calc roundUnits a b
        _ ≤ 2 ^ (c / d).log2 := roundUnits_le_two_pow hbelow (by omega)
        _ ≤ roundUnits c d := two_pow_le_roundUnits (Nat.log2_self_le hne) (by omega)

/-! ### Order -/

theorem Position.le_trans {p q r : Position} (first : p.le q = true) (second : q.le r = true) :
    p.le r = true := by
  cases p <;> cases q <;> cases r <;> simp_all [Position.le]
  omega

theorem le_trans {x y z : Binary64} (first : x.le y = true) (second : y.le z = true) : x.le z = true := by
  unfold le at *
  cases hx : x.position? <;> cases hy : y.position? <;> cases hz : z.position? <;> simp_all
  exact Position.le_trans first second

theorem not_le_of_lt {x y : Binary64} (h : x < y) : ¬ y ≤ x := by
  intro hle
  change x.lt y = true at h
  change y.le x = true at hle
  unfold lt at h
  unfold le at hle
  cases hx : x.position? <;> cases hy : y.position? <;> simp_all

/-- Only numbers are at most or at least something. -/
theorem isNaN_of_le {x y : Binary64} (h : x ≤ y) : x.isNaN = false ∧ y.isNaN = false := by
  change x.le y = true at h
  cases x with
  | nan => cases h
  | _ =>
      refine ⟨rfl, ?_⟩
      cases y with
      | nan => cases h
      | _ => rfl

theorem lt_of_not_le {x y : Binary64} (hx : x.isNaN = false) (hy : y.isNaN = false) (h : ¬ y ≤ x) : x < y := by
  obtain ⟨p, hp⟩ : ∃ p, x.position? = some p := by
    cases x with
    | nan => cases hx
    | _ => exact ⟨_, rfl⟩
  obtain ⟨q, hq⟩ : ∃ q, y.position? = some q := by
    cases y with
    | nan => cases hy
    | _ => exact ⟨_, rfl⟩
  change ¬ y.le x = true at h
  show x.lt y = true
  simpa [le, lt, hp, hq] using h

theorem le_of_not_lt {x y : Binary64} (hx : x.isNaN = false) (hy : y.isNaN = false) (h : ¬ x < y) : y ≤ x := by
  by_contra hnot
  exact h (lt_of_not_le hx hy hnot)

theorem lt_of_le_of_lt {x y z : Binary64} (first : x.le y = true) (second : y.lt z = true) :
    x.lt z = true := by
  unfold le at first
  unfold lt at *
  cases hx : x.position? <;> cases hy : y.position? <;> cases hz : z.position? <;> simp_all
  -- If the last stood at or before the first, it would stand at or before the second.
  next p q r => exact Bool.eq_false_iff.mpr fun hback => by simp [Position.le_trans hback first] at second

theorem round_le_round {a b c d : Nat} (hb : 0 < b) (hd : 0 < d) (h : a * d ≤ c * b) :
    (round false a b).le (round false c d) = true := by
  have hunits := roundUnits_mono hb hd h
  unfold round
  by_cases hlarge : roundUnits c d < limit
  · rw [dif_pos hlarge, dif_pos (Nat.lt_of_le_of_lt hunits hlarge)]
    exact decide_eq_true (Int.ofNat_le.mpr hunits)
  · rw [dif_neg hlarge]
    split <;> rfl

/-- Natural numbers keep their order as doubles. -/
theorem ofNat_le_ofNat {m n : Nat} (h : m ≤ n) : (ofNat m).le (ofNat n) = true := by
  refine round_le_round Nat.one_pos Nat.one_pos ?_
  rw [Nat.mul_one, Nat.mul_one]
  exact Nat.mul_le_mul_right one h

end Binary64

end LoadTest
