import LoadTest.Format.Json
import LoadTest.Proofs.Number.Finite

/-!
# LoadTest.Proofs.Json.Double

Doubles in JSON. **Every double that is read is finite** (`isFinite_of_double?`): a numeral past the largest one
has no value. Numerals are rounded twice on the way, so what the number of a double is read as (`reread?`) may be
another double, and whether it is read back as it was written is a property of that double (`Exact`).
-/

namespace LoadTest.Json

open Format

/-- What the number that is written for a double is read as. -/
def reread? (x : Binary64) : Option Binary64 := double? (ofDouble x)

/-- If the double is finite, it is read back as it was written. -/
def Exact (x : Binary64) : Prop := x.isFinite = true → double? (ofDouble x) = some x

instance (x : Binary64) : Decidable (Exact x) :=
  inferInstanceAs (Decidable (x.isFinite = true → double? (ofDouble x) = some x))

theorem takeWord_lt {ds : List Nat} {n : Nat} (h : n < UInt64.size) : (takeWord n ds).1 < UInt64.size := by
  induction ds generalizing n with
  | nil => exact h
  | cons d ds ih =>
      rw [takeWord]
      split
      · next hstep => exact ih hstep
      · exact h

theorem isFinite_shrink {x : Binary64} (h : x.isFinite = true) (n : Nat) : (shrink x n).isFinite = true := by
  induction n generalizing x with
  | zero => exact h
  | succ n ih =>
      rw [shrink]
      split
      · exact h
      · -- The power of ten is not to be written out.
        obtain ⟨k, hk⟩ : ∃ k, k = 308 := ⟨308, rfl⟩
        rw [← hk]
        exact ih (Binary64.isFinite_div_pow_ten h (Nat.le_of_eq hk))

theorem isFinite_of_scale? {significand : Nat} {e : Int} {x : Binary64} (small : significand < UInt64.size)
    (h : scale? significand e = some x) : x.isFinite = true := by
  have hsignificand := Binary64.isFinite_ofNat small
  simp only [scale?] at h
  split at h
  · exact Option.some.inj h ▸ hsignificand
  split at h
  · cases h
  split at h
  · split at h
    · next hfinite => exact Option.some.inj h ▸ hfinite
    · cases h
  · rw [← Option.some.inj h]
    exact Binary64.isFinite_div_pow_ten (isFinite_shrink hsignificand _) (by omega)

theorem isFinite_of_meaning? {numeral : Numeral} {x : Binary64} (h : numeral.meaning? = some (.double x)) :
    x.isFinite = true := by
  have hwhole : (takeWord 0 numeral.whole).1 < UInt64.size := takeWord_lt (by decide)
  simp only [Numeral.meaning?] at h
  split at h
  · split at h
    · cases h
    · split at h
      · cases h
      · cases h
        exact Binary64.isFinite_neg (Binary64.isFinite_ofNat hwhole)
  · obtain ⟨y, hy, hx⟩ := Option.bind_eq_some_iff.mp h
    have hfinite := isFinite_of_scale? (takeWord_lt hwhole) hy
    cases hx
    split
    · exact Binary64.isFinite_neg hfinite
    · exact hfinite

theorem natAbs_of_meaning? {numeral : Numeral} {i : Int} (h : numeral.meaning? = some (.negative i)) :
    i.natAbs ≤ 2 ^ 64 := by
  simp only [Numeral.meaning?] at h
  split at h
  · split at h
    · cases h
    · split at h
      · next hsmall =>
        cases h
        have hlimit : signedLimit ≤ 2 ^ 64 := by decide
        omega
      · cases h
  · obtain ⟨y, -, hx⟩ := Option.bind_eq_some_iff.mp h
    cases hx

/-- **Every double that is read is finite.** -/
theorem isFinite_of_double? {json : Json} {x : Binary64} (h : double? json = some x) : x.isFinite = true := by
  cases json with
  | number numeral =>
      simp only [double?] at h
      split at h
      · cases h
        exact Binary64.isFinite_ofNat (UInt64.toNat_lt _)
      · next hmeaning =>
        cases h
        exact (Binary64.within_ofQuotient true (natAbs_of_meaning? hmeaning)).isFinite
      · next hmeaning =>
        cases h
        exact isFinite_of_meaning? hmeaning
      · cases h
  | _ => cases h

end LoadTest.Json
