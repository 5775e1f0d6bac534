import LoadTest.Proofs.Json.Double
import LoadTest.Proofs.Number.Closeness
import LoadTest.Proofs.Number.Numeral

/-!
# LoadTest.Proofs.Json.Reread

Doubles written as JSON numbers and read back. **Every finite double is read back as some double**
(`isSome_reread?_iff`), though not always as the one that was written.

Reading fails only where a number is scaled past the largest double. The significand, the power of ten and their
product are each rounded, and together this leads up by less than two steps of the greatest doubles
(`mul_round_le`). So whatever is below the third greatest double is read; the three that are left are read one by one
(`isSome_reread?_last`).
-/

namespace LoadTest.Json

open Binary64 Format

attribute [local irreducible] Binary64.one

/-! ### Digits that are taken -/

theorem length_takeWord_le (ds : List Nat) (n : Nat) : (takeWord n ds).2.length ≤ ds.length := by
  induction ds generalizing n with
  | nil => exact Nat.le_refl 0
  | cons d ds ih =>
      rw [takeWord]
      split
      · exact Nat.le_succ_of_le (ih _)
      · exact Nat.le_refl _

theorem mul_pow_le_digits (ds : List Nat) (n : Nat) : n * 10 ^ ds.length ≤ ds.foldl (fun n d => 10 * n + d) n := by
  induction ds generalizing n with
  | nil => simp
  | cons d ds ih =>
      calc n * 10 ^ (ds.length + 1)
        _ = 10 * n * 10 ^ ds.length := by ring
        _ ≤ (10 * n + d) * 10 ^ ds.length := Nat.mul_le_mul_right _ (Nat.le_add_right _ d)
        _ ≤ ds.foldl (fun n d => 10 * n + d) (10 * n + d) := ih _

/-- The digits that are taken, with the places of those that are not, are at most all digits. -/
theorem takeWord_mul_pow_le (ds : List Nat) (n : Nat) :
    (takeWord n ds).1 * 10 ^ (takeWord n ds).2.length ≤ ds.foldl (fun n d => 10 * n + d) n := by
  induction ds generalizing n with
  | nil => simp [takeWord]
  | cons d ds ih =>
      rw [takeWord]
      split
      · exact ih _
      · exact mul_pow_le_digits (d :: ds) n

theorem takeWord_digit {d : Nat} (h : d < 10) : takeWord 0 [d] = (d, []) := by
  have hsmall : 10 * 0 + d < UInt64.size := by
    rw [Nat.mul_zero, Nat.zero_add]
    exact Nat.lt_trans h (by decide)
  rw [takeWord, if_pos hsmall, takeWord, Nat.mul_zero, Nat.zero_add]

theorem value_of_digits {digits : List Char} {first : Nat} {others : List Nat}
    (h : digits.map (fun c => c.toNat - '0'.toNat) = first :: others) :
    LoadTest.Numeral.value digits = others.foldl (fun n d => 10 * n + d) first := by
  have hall : LoadTest.Numeral.value digits = (first :: others).foldl (fun n d => 10 * n + d) 0 := by
    rw [← h, List.foldl_map]
    rfl
  rwa [List.foldl_cons, Nat.mul_zero, Nat.zero_add] at hall

/-! ### Scaling -/

section Scale

variable {m : Nat} {e : Int}

theorem isSome_scale? (h : 0 ≤ e → 0 < m →
    e ≤ 308 ∧ (Binary64.ofNat m * Binary64.ofNat (Nat.pow 10 e.toNat)).isFinite = true) :
    (scale? m e).isSome = true := by
  unfold scale?
  simp only
  split
  · rfl
  · next hne =>
    split
    · next hlarge =>
      have hle := (h (by omega) (Nat.pos_of_ne_zero hne)).1
      omega
    · split
      · next hpos =>
        rw [if_pos (h hpos (Nat.pos_of_ne_zero hne)).2]
        rfl
      · rfl

theorem within_ofNat {n k : Nat} (hk : k < 971) (h : n ≤ 2 ^ k) : (Binary64.ofNat n).Within (2 ^ k * one) :=
  within_round false (representable_two_pow_mul_one hk) Nat.one_pos (by
    rw [Nat.mul_one]
    exact Nat.mul_le_mul_right one h)

/-- Up to two hundred places nothing is too large. -/
theorem isSome_scale?_of_le (hm : m < UInt64.size) (he : e ≤ 200) : (scale? m e).isSome = true := by
  refine isSome_scale? fun _ _ => ⟨by omega, ?_⟩
  have hpower : Nat.pow 10 e.toNat ≤ 2 ^ (4 * e.toNat) := by
    rw [Nat.pow_mul]
    exact Nat.pow_le_pow_left (by decide) _
  have hsignificand : (Binary64.ofNat m).Within (2 ^ 64 * one) := within_ofNat (by decide) (Nat.le_of_lt hm)
  exact (Within.mul (by omega) hsignificand (within_ofNat (by omega) hpower)).isFinite

/-- How far the greatest doubles are apart. -/
def step : Nat := 1 <<< 971

theorem step_eq : step = 2 ^ 971 := one_shiftLeft 971

theorem limit_eq_step : Binary64.limit = 2 ^ 53 * step * one := by
  rw [limit_eq, step_eq, ← Nat.pow_add]

theorem step_pos : 0 < step := one_shiftLeft_pos _

attribute [local irreducible] step

/-- The greatest doubles, counted from above. -/
def last (k : Nat) : Nat := (2 ^ 53 - k) * step * one

theorem last_lt_limit {k : Nat} (hpos : 0 < k) : last k < Binary64.limit := by
  rw [limit_eq_step]
  exact Nat.mul_lt_mul_of_pos_right (Nat.mul_lt_mul_of_pos_right (by omega) step_pos) Binary64.one_pos

theorem representable_last {k : Nat} (hpos : 0 < k) : Representable (last k) := by
  have hlimit := last_lt_limit hpos
  have hpower : step * one = 2 ^ (971 + 1074) := by
    rw [step_eq, two_pow_mul_one]
  rw [last, Nat.mul_assoc, hpower] at hlimit ⊢
  exact representable_mul_two_pow (Nat.sub_le ..) hlimit

/-- Two roundings lead no further than from the third greatest double to the greatest. -/
theorem mul_round_le {m n : Nat} (h : m * n * one ≤ last 3) :
    roundUnits (roundUnits (m * one) 1 * roundUnits (n * one) 1) one ≤ last 1 := by
  have hone := one_cast_pos
  have hstep : (0 : ℚ) < step := by exact_mod_cast step_pos
  have hvalue : m * n ≤ (2 ^ 53 - 3) * step := Nat.le_of_mul_le_mul_right h Binary64.one_pos
  have hvalue : (m * n : ℚ) ≤ (2 ^ 53 - 3) * step := by
    have hcast : ((m * n : Nat) : ℚ) ≤ ((2 ^ 53 - 3) * step : Nat) := Nat.cast_le.mpr hvalue
    rwa [Nat.cast_mul, Nat.cast_mul, Nat.cast_sub (by decide)] at hcast
  have hproduct : (amount (roundUnits (m * one) 1) * amount (roundUnits (n * one) 1) : ℚ) ≤ (2 ^ 53 - 1) * step :=
    calc amount (roundUnits (m * one) 1) * amount (roundUnits (n * one) 1)
      _ ≤ m * n * (1 + roundoff) ^ 2 :=
          ((close_whole m).mul (close_whole n) (amount_nonneg _) (by positivity) (amount_nonneg _) (by positivity)).le
      _ ≤ (2 ^ 53 - 3) * step * (1 + roundoff) ^ 2 := mul_le_mul_of_nonneg_right hvalue (factor_pos 2).le
      _ = (2 ^ 53 - 3) * (1 + roundoff) ^ 2 * step := by ring
      _ ≤ (2 ^ 53 - 1) * step := mul_le_mul_of_nonneg_right (by norm_num [roundoff]) hstep.le
  refine roundUnits_le (representable_last (by decide)) Binary64.one_pos ?_
  generalize roundUnits (m * one) 1 = a at hproduct ⊢
  generalize roundUnits (n * one) 1 = b at hproduct ⊢
  refine Nat.cast_le (α := ℚ).mp ?_
  rw [amount, amount, div_mul_div_comm, div_le_iff₀ (mul_pos hone hone), ← mul_assoc] at hproduct
  rw [last, Nat.cast_mul, Nat.cast_mul, Nat.cast_mul, Nat.cast_mul, Nat.cast_sub (by decide)]
  exact hproduct

theorem hasUnits_ofNat_of_le_last {n : Nat} (h : n * one ≤ last 3) :
    (Binary64.ofNat n).HasUnits (roundUnits (n * one) 1) := by
  refine hasUnits_ofNat (Nat.lt_of_le_of_lt ?_ (last_lt_limit (by decide : 0 < 3)))
  refine roundUnits_le (representable_last (by decide)) Nat.one_pos ?_
  rwa [Nat.mul_one]

/-- No power of ten past the largest double is below it. -/
theorem le_of_pow_ten_lt {n : Nat} (h : 10 ^ n * one < Binary64.limit) : n ≤ 308 := by
  by_contra hlarge
  obtain ⟨k, hk, hlimit⟩ : ∃ k, k = 309 ∧ Binary64.limit ≤ 10 ^ k * one := ⟨309, rfl, by decide +kernel⟩
  have hten : 10 ^ k * one ≤ 10 ^ n * one :=
    Nat.mul_le_mul_right one (Nat.pow_le_pow_right (by decide) (by omega))
  exact absurd (Nat.lt_of_le_of_lt (Nat.le_trans hlimit hten) h) (Nat.lt_irrefl _)

/-- What is below the third greatest double is never too large. -/
theorem isSome_scale?_of_lt (h : 0 ≤ e → m * 10 ^ e.toNat * one < last 3) : (scale? m e).isSome = true := by
  refine isSome_scale? fun hpos hm => ?_
  have hvalue := h hpos
  have hpower : 10 ^ e.toNat * one ≤ m * 10 ^ e.toNat * one :=
    Nat.mul_le_mul_right one (Nat.le_mul_of_pos_left _ hm)
  constructor
  · have hplaces := le_of_pow_ten_lt
      (Nat.lt_of_le_of_lt hpower (Nat.lt_trans hvalue (last_lt_limit (by decide))))
    omega
  · have hten : Nat.pow 10 e.toNat = 10 ^ e.toNat := rfl
    rw [hten]
    have hpos : 0 < 10 ^ e.toNat := Nat.pow_pos (by decide)
    generalize 10 ^ e.toNat = power at hvalue hpower hpos ⊢
    have hsignificand : m * one ≤ m * power * one := Nat.mul_le_mul_right one (Nat.le_mul_of_pos_right m hpos)
    have hunits := hasUnits_ofNat_of_le_last (Nat.le_trans hsignificand (Nat.le_of_lt hvalue))
    have hpowerUnits := hasUnits_ofNat_of_le_last (Nat.le_trans hpower (Nat.le_of_lt hvalue))
    have hproduct := Nat.lt_of_le_of_lt (mul_round_le (Nat.le_of_lt hvalue)) (last_lt_limit (by decide))
    exact (hunits.mul hpowerUnits hproduct).isFinite

end Scale

/-! ### Numerals -/

section Meaning

variable {numeral : Numeral}

theorem isSome_double?_number (h : numeral.meaning?.isSome = true) : (double? (Json.number numeral)).isSome = true := by
  obtain ⟨meaning, hmeaning⟩ := Option.isSome_iff_exists.mp h
  simp only [double?, hmeaning]
  cases meaning <;> rfl

/-- A numeral has a meaning unless it is scaled too far. -/
theorem isSome_meaning? (h : ∀ {n m dropped unused}, takeWord 0 numeral.whole = (n, dropped) →
      takeWord n numeral.fraction = (m, unused) →
      (scale? m (dropped.length - (numeral.fraction.length - unused.length : Nat)
        + numeral.exponent.getD 0)).isSome = true) : numeral.meaning?.isSome = true := by
  unfold Numeral.meaning?
  rcases hwhole : takeWord 0 numeral.whole with ⟨n, dropped⟩
  rcases hfraction : takeWord n numeral.fraction with ⟨m, unused⟩
  simp only [hfraction]
  split
  · split
    · rfl
    · split <;> rfl
  · obtain ⟨x, hx⟩ := Option.isSome_iff_exists.mp (h hwhole hfraction)
    simp [hx]

/-- A numeral of few places before the point has a meaning. -/
theorem isSome_meaning?_of_short (h : numeral.whole.length + numeral.exponent.getD 0 ≤ 200) :
    numeral.meaning?.isSome = true := by
  refine isSome_meaning? fun {n m dropped unused} hwhole hfraction => isSome_scale?_of_le ?_ ?_
  · have hn : (takeWord 0 numeral.whole).1 < UInt64.size := takeWord_lt (by decide)
    rw [hwhole] at hn
    have hm : (takeWord n numeral.fraction).1 < UInt64.size := takeWord_lt hn
    rwa [hfraction] at hm
  · have hdropped : dropped.length ≤ numeral.whole.length := by
      have hle := length_takeWord_le numeral.whole 0
      rwa [hwhole] at hle
    omega

end Meaning

/-! ### Doubles -/

theorem ofDouble_eq (negative : Bool) {units : Nat} (h : Representable units) (hne : units ≠ 0) :
    ofDouble (.finite negative units h) = ofDecimal negative (shortest units) := if_neg hne

/-- What is read as a double that is below another one is below that. -/
theorem lt_of_ofDecimal {negative : Bool} {m units bound : Nat} {e : Int} {hunits : Representable units}
    (hbound : Representable bound) (hless : units < bound)
    (h : Binary64.ofDecimal negative m e = .finite negative units hunits) :
    m * 10 ^ e.toNat * one < bound * 10 ^ (-e).toNat := by
  have hden : 0 < 10 ^ (-e).toNat := Nat.pow_pos (by decide)
  rw [ofDecimal_eq, ofQuotient, Binary64.round] at h
  generalize 10 ^ (-e).toNat = den at hden h ⊢
  split at h
  · obtain ⟨-, hround⟩ := Binary64.finite.inj h
    by_contra hlarge
    have hle := le_roundUnits hbound hden (Nat.not_lt.mp hlarge)
    omega
  · cases h

/-- A positive double below the third greatest has a number with an exponent that is read back. -/
theorem isSome_meaning?_scientific (negative : Bool) {units : Nat} {digits : List Char} {place : Int}
    (hunits : Representable units) (hless : units < last 3) (hdigits : significant (shortest units) = (digits, place))
    {first : Nat} {others : List Nat} (hkept : digits.map (fun c => c.toNat - '0'.toNat) = first :: others)
    (hfirst : first < 10) :
    (Numeral.meaning? ⟨negative, [first], others, some (place - 1)⟩).isSome = true := by
  have hreads := significant_value false hdigits
  rw [ofDecimal_of_readsBack hunits (readsBack_shortest hunits)] at hreads
  have hbelow := lt_of_ofDecimal (representable_last (by decide)) hless hreads
  have hlength : digits.length = others.length + 1 := by
    rw [← List.length_map (fun c : Char => c.toNat - '0'.toNat), hkept, List.length_cons]
  refine isSome_meaning? fun {n m dropped unused} hwhole hfraction => isSome_scale?_of_lt fun hpos => ?_
  obtain ⟨rfl, rfl⟩ := Prod.mk.inj ((takeWord_digit hfirst).symm.trans hwhole)
  have htaken := takeWord_mul_pow_le others first
  have hunused := length_takeWord_le others first
  simp only at hfraction
  rw [hfraction] at htaken hunused
  simp only [List.length_nil, Option.getD_some] at hpos htaken hunused ⊢
  rw [← value_of_digits hkept] at htaken
  rw [hlength] at hbelow
  generalize LoadTest.Numeral.value digits = all at htaken hbelow
  -- The digits that are not taken only count as places.
  generalize hexponent : ((0 : Nat) : Int) - (others.length - unused.length : Nat) + (place - 1) = e at hpos ⊢
  have hplaces : e.toNat + (-(place - (others.length + 1 : Nat))).toNat
      = unused.length + (place - (others.length + 1 : Nat)).toNat := by omega
  generalize place - ((others.length + 1 : Nat) : Int) = places at hbelow hplaces
  refine Nat.lt_of_mul_lt_mul_right (a := 10 ^ (-places).toNat) (Nat.lt_of_le_of_lt ?_ hbelow)
  calc m * 10 ^ e.toNat * one * 10 ^ (-places).toNat
    _ = m * 10 ^ (e.toNat + (-places).toNat) * one := by rw [Nat.pow_add]; ring
    _ = m * 10 ^ unused.length * 10 ^ places.toNat * one := by rw [hplaces, Nat.pow_add]; ring
    _ ≤ all * 10 ^ places.toNat * one := Nat.mul_le_mul_right one (Nat.mul_le_mul_right _ htaken)

/-- The three greatest doubles. -/
theorem shortest_last {k : Nat} (hpos : 0 < k) (hk : k ≤ 3) :
    shortest (last k) = ⟨17976931348623159 - 2 * k, 292⟩ := by
  have hall : ∀ k < 4, 0 < k → shortest (last k) = ⟨17976931348623159 - 2 * k, 292⟩ := by decide +kernel
  exact hall k (by omega) hpos

theorem last_ne_zero {k : Nat} (hk : k ≤ 3) : last k ≠ 0 :=
  Nat.ne_of_gt (Nat.mul_pos (Nat.mul_pos (by omega) step_pos) Binary64.one_pos)

/-- They are read back, if only just. -/
theorem isSome_reread?_last (negative : Bool) {k : Nat} (hpos : 0 < k) (hk : k ≤ 3) :
    (reread? (.finite negative (last k) (representable_last hpos))).isSome = true := by
  have hall : ∀ negative : Bool, ∀ k < 4, 0 < k →
      (double? (ofDecimal negative ⟨17976931348623159 - 2 * k, 292⟩)).isSome = true := by decide +kernel
  rw [reread?, ofDouble_eq negative _ (last_ne_zero hk), shortest_last hpos hk]
  exact hall negative k (by omega) hpos

theorem exists_last {units : Nat} (hunits : Representable units) (hlarge : last 3 ≤ units) :
    ∃ k, 0 < k ∧ k ≤ 3 ∧ units = last k := by
  have hstep : step * one ∣ units := by
    obtain ⟨k, hk⟩ : ∃ k, step = 2 ^ k := ⟨971, step_eq⟩
    have hpower : 2 ^ (k + 52) * one ≤ units := by
      rw [Nat.pow_add, ← hk, Nat.mul_comm step]
      exact Nat.le_trans (Nat.mul_le_mul_right one (Nat.mul_le_mul_right step (by decide))) hlarge
    rw [hk]
    exact Nat.dvd_trans (dvd_lastPlace hpower) (lastPlace_dvd hunits)
  obtain ⟨count, rfl⟩ := hstep
  have hpos : 0 < step * one := Nat.mul_pos step_pos Binary64.one_pos
  have hcount : count < 2 ^ 53 := by
    have hlimit := hunits.1
    rw [limit_eq_step, Nat.mul_assoc (2 ^ 53), Nat.mul_comm (step * one)] at hlimit
    exact Nat.lt_of_mul_lt_mul_right hlimit
  have hcount' : 2 ^ 53 - 3 ≤ count := by
    rw [last, Nat.mul_assoc (2 ^ 53 - 3), Nat.mul_comm (step * one)] at hlarge
    exact Nat.le_of_mul_le_mul_right hlarge hpos
  refine ⟨2 ^ 53 - count, by omega, by omega, ?_⟩
  rw [last, Nat.sub_sub_self (Nat.le_of_lt hcount), Nat.mul_assoc count, Nat.mul_comm count]

/-- A positive double below the third greatest is read back. -/
theorem isSome_reread?_of_lt (negative : Bool) {units : Nat} (hunits : Representable units) (hne : units ≠ 0)
    (hless : units < last 3) : (reread? (.finite negative units hunits)).isSome = true := by
  obtain ⟨first, others, hkept, -, hsmall⟩ := significant_digits (shortest_ne_zero hne)
  rcases hdigits : significant (shortest units) with ⟨digits, place⟩
  rw [hdigits] at hkept
  simp only at hkept
  rw [reread?, ofDouble_eq negative hunits hne]
  simp only [ofDecimal, hdigits, hkept]
  split
  · next hpositional =>
    have hplace : -4 ≤ place ∧ place ≤ 16 := by
      simpa [Layout.isPositional, Layout.data] using hpositional
    -- There are at most sixteen digits before the point.
    split
    · exact isSome_double?_number (isSome_meaning?_of_short (by simp))
    · refine isSome_double?_number (isSome_meaning?_of_short ?_)
      simp only [List.length_append, List.length_take, List.length_replicate, Option.getD_none]
      omega
  · exact isSome_double?_number (isSome_meaning?_scientific negative hunits hless hdigits hkept
      (hsmall first List.mem_cons_self))

/-- **Every finite double is read back as some double,** and nothing else is. -/
theorem isSome_reread?_iff {x : Binary64} : (reread? x).isSome = true ↔ x.isFinite = true := by
  cases x with
  | nan => exact ⟨nofun, nofun⟩
  | infinite negative => exact ⟨nofun, nofun⟩
  | finite negative units hunits =>
      refine iff_of_true ?_ rfl
      by_cases hzero : units = 0
      · subst hzero
        exact isSome_double?_number (isSome_meaning?_of_short (by simp))
      · rcases Nat.lt_or_ge units (last 3) with hless | hlarge
        · exact isSome_reread?_of_lt negative hunits hzero hless
        · obtain ⟨k, hpos, hk, rfl⟩ := exists_last hunits hlarge
          exact isSome_reread?_last negative hpos hk

end LoadTest.Json
