import Mathlib.Algebra.GroupWithZero.Nat
import LoadTest.Proofs.Workload.Random
import LoadTest.Workload.Basic

/-!
# LoadTest.Proofs.Workload.Jitter

User identities at the edge of 64 bits. **What is checked before a run is one identity, the largest, and it
decides for all:** a workload is accepted exactly if no user has an identity beyond 64 bits, whatever is drawn
(`Jitter.check_eq_ok_iff_exact`), so that in a run no identity is ever capped and no two users share one for that
reason.
-/

namespace LoadTest

namespace Jitter

variable {jitter : Jitter} {user drawn : UInt64}

/-! ### The check -/

/-- The largest identity fits exactly if its exact value has 64 bits: neither of its two steps is too large
then, and if one of them is, so is the whole. -/
theorem isSome_largest?_iff : jitter.largest?.isSome = true
    ↔ jitter.baseModulo.toNat + jitter.jitterMax.toNat * jitter.multiplier.toNat < UInt64.size := by
  unfold largest? Word.mul?
  cases hspread : Word.ofNat? (jitter.jitterMax.toNat * jitter.multiplier.toNat) with
  | none =>
      have hlarge : ¬ jitter.jitterMax.toNat * jitter.multiplier.toNat < UInt64.size := by
        rw [← Word.isSome_ofNat?_iff, hspread]
        exact Bool.false_ne_true
      refine iff_of_false Bool.false_ne_true ?_
      omega
  | some spread =>
      have hexact := Word.toNat_of_ofNat? hspread
      show (Word.add? spread jitter.baseModulo).isSome = true ↔ _
      rw [Word.add?, Word.isSome_ofNat?_iff, hexact, Nat.add_comm]

/-- A jitter is accepted exactly if its modulus is positive and its largest identity has 64 bits. -/
theorem check_eq_ok_iff : jitter.check = .ok () ↔ 0 < jitter.baseModulo.toNat
    ∧ jitter.baseModulo.toNat + jitter.jitterMax.toNat * jitter.multiplier.toNat < UInt64.size := by
  have hzero : jitter.baseModulo = 0 ↔ jitter.baseModulo.toNat = 0 := UInt64.toNat_inj.symm
  unfold check
  split
  · next h => simp [hzero.mp h]
  · next h =>
      have hpositive : 0 < jitter.baseModulo.toNat := Nat.pos_of_ne_zero (mt hzero.mpr h)
      rw [and_iff_right hpositive, ← isSome_largest?_iff]
      split
      · next fits => simp [fits]
      · next large => simp [large]

/-! ### Identities -/

/-- The identity of a user for one draw, however many bits it has. -/
def exact (jitter : Jitter) (user drawn : UInt64) : Nat :=
  user.toNat % jitter.baseModulo.toNat + 1 + drawn.toNat * jitter.multiplier.toNat

/-- No identity is greater than the one that is checked. -/
theorem exact_le (positive : 0 < jitter.baseModulo.toNat) (within : drawn ≤ jitter.jitterMax) :
    jitter.exact user drawn ≤ jitter.baseModulo.toNat + jitter.jitterMax.toNat * jitter.multiplier.toNat := by
  have hmod : user.toNat % jitter.baseModulo.toNat + 1 ≤ jitter.baseModulo.toNat := Nat.mod_lt _ positive
  have hspread : drawn.toNat * jitter.multiplier.toNat ≤ jitter.jitterMax.toNat * jitter.multiplier.toNat :=
    Nat.mul_le_mul_right _ (UInt64.le_iff_toNat_le.mp within)
  exact Nat.add_le_add hmod hspread

/-- The identity that is checked belongs to a user: the one whose number is the modulus less one. -/
theorem exists_exact_eq (positive : 0 < jitter.baseModulo.toNat) : ∃ user, jitter.exact user jitter.jitterMax
    = jitter.baseModulo.toNat + jitter.jitterMax.toNat * jitter.multiplier.toNat := by
  have hmodulo : jitter.baseModulo.toNat < UInt64.size := jitter.baseModulo.toNat_lt
  have huser : (UInt64.ofNat (jitter.baseModulo.toNat - 1)).toNat = jitter.baseModulo.toNat - 1 :=
    UInt64.toNat_ofNat_of_lt' (by omega)
  refine ⟨.ofNat (jitter.baseModulo.toNat - 1), ?_⟩
  rw [exact, huser, Nat.mod_eq_of_lt (by omega), Nat.sub_add_cancel positive]

/-- **The check is exactly that no identity overflows,** for any user and any draw. -/
theorem check_eq_ok_iff_exact : jitter.check = .ok () ↔ 0 < jitter.baseModulo.toNat
    ∧ ∀ user drawn : UInt64, drawn ≤ jitter.jitterMax → jitter.exact user drawn ≤ 2 ^ 64 - 1 := by
  have hsize : UInt64.size = 2 ^ 64 := rfl
  rw [check_eq_ok_iff]
  refine and_congr_right fun positive => ⟨fun fits user drawn within => ?_, fun all => ?_⟩
  · have hle : jitter.exact user drawn ≤ _ := exact_le positive within
    omega
  · obtain ⟨user, hlargest⟩ := exists_exact_eq positive
    have hfits := all user jitter.jitterMax (UInt64.le_refl _)
    omega

theorem toNat_max_one (h : 0 < jitter.baseModulo.toNat) :
    (max jitter.baseModulo 1).toNat = jitter.baseModulo.toNat := by
  show (if jitter.baseModulo ≤ 1 then 1 else jitter.baseModulo).toNat = _
  split
  · next hle =>
    have hone : jitter.baseModulo.toNat ≤ 1 := UInt64.le_iff_toNat_le.mp hle
    show 1 = _
    omega
  · rfl

/-- **No step is capped on the way to an identity that fits.** -/
theorem toNat_identity (positive : 0 < jitter.baseModulo.toNat)
    (fits : jitter.exact user drawn < UInt64.size) :
    (jitter.identity user drawn).toNat = jitter.exact user drawn := by
  have hmod : (user % max jitter.baseModulo 1).toNat = user.toNat % jitter.baseModulo.toNat := by
    rw [UInt64.toNat_mod, toNat_max_one positive]
  unfold exact at fits ⊢
  have hbase : (Word.addCapped (user % max jitter.baseModulo 1) 1).toNat
      = user.toNat % jitter.baseModulo.toNat + 1 := by
    rw [Word.addCapped, hmod]
    exact Word.toNat_ofNatCapped_of_lt (Nat.lt_of_le_of_lt (Nat.le_add_right ..) fits)
  have hspread : (Word.mulCapped drawn jitter.multiplier).toNat = drawn.toNat * jitter.multiplier.toNat :=
    Word.toNat_ofNatCapped_of_lt (Nat.lt_of_le_of_lt (Nat.le_add_left ..) fits)
  rw [identity, Word.addCapped, hbase, hspread]
  exact Word.toNat_ofNatCapped_of_lt fits

end Jitter

namespace Workload

/-- What is asked for on a shared target hangs on one draw, and the draw succeeds whatever the words are. -/
theorem exists_next?_shared (target : UInt64) (jitter : Jitter) (user : UInt64) (words : Words) :
    ∃ drawn rest, drawn ≤ jitter.jitterMax
      ∧ (shared target jitter).next? user words = some (⟨some (jitter.identity user drawn), target⟩, rest) := by
  cases hdraw : words.inRange? 0 jitter.jitterMax with
  | none => exact absurd (Words.inRange?_eq_none_iff.mp hdraw) UInt64.not_lt_zero
  | some result =>
      obtain ⟨drawn, rest⟩ := result
      refine ⟨drawn, rest, (Words.mem_of_inRange? hdraw).2, ?_⟩
      rw [next?, hdraw]
      rfl

/-- **Identities are exact, or the workload is refused.** A workload on a shared target is accepted exactly if its
modulus is positive and the exact identity of every user and draw has 64 bits. Accepted or not, each user has a
next request, with the identity of some draw; and if it was accepted, that identity is the exact one, lies between
one and the largest, and is a multiple of the multiplier beyond one and the user's own number. -/
theorem identities_exact (target : UInt64) (jitter : Jitter) :
    ((shared target jitter).check = .ok () ↔ 0 < jitter.baseModulo.toNat
        ∧ ∀ user drawn : UInt64, drawn ≤ jitter.jitterMax → jitter.exact user drawn ≤ 2 ^ 64 - 1)
      ∧ ∀ user words, ∃ drawn id rest, drawn ≤ jitter.jitterMax
        ∧ (shared target jitter).next? user words = some (⟨some id, target⟩, rest)
        ∧ ((shared target jitter).check = .ok () → id.toNat = jitter.exact user drawn ∧ 1 ≤ id.toNat
          ∧ id.toNat ≤ jitter.baseModulo.toNat + jitter.jitterMax.toNat * jitter.multiplier.toNat
          ∧ jitter.multiplier.toNat ∣ id.toNat - 1 - user.toNat % jitter.baseModulo.toNat) := by
  refine ⟨Jitter.check_eq_ok_iff_exact, fun user words => ?_⟩
  obtain ⟨drawn, rest, within, hnext⟩ := exists_next?_shared target jitter user words
  refine ⟨drawn, _, rest, within, hnext, fun accepted => ?_⟩
  obtain ⟨positive, fits⟩ := Jitter.check_eq_ok_iff.mp accepted
  have hle : jitter.exact user drawn
      ≤ jitter.baseModulo.toNat + jitter.jitterMax.toNat * jitter.multiplier.toNat :=
    Jitter.exact_le positive within
  have hexact := Jitter.toNat_identity positive (Nat.lt_of_le_of_lt hle fits)
  rw [hexact]
  have hspread : jitter.exact user drawn - 1 - user.toNat % jitter.baseModulo.toNat
      = drawn.toNat * jitter.multiplier.toNat := by
    unfold Jitter.exact
    omega
  refine ⟨rfl, ?_, hle, ?_⟩
  · unfold Jitter.exact
    omega
  · rw [hspread]
    exact Nat.dvd_mul_left ..

/-- Identities up to the very last word. -/
def upToLast : Jitter := ⟨10, 5, 3689348814741910321⟩

/-- The last word is an identity of theirs, and each identity is the exact one. -/
theorem last_word_is_identity : (shared 1 upToLast).check = .ok () ∧ upToLast.exact 9 5 = 2 ^ 64 - 1
    ∧ ∃ (drawn id : UInt64) (rest : Words), drawn ≤ 5
      ∧ (shared 1 upToLast).next? 9 ⟨[0xffffffffffffffff], 0⟩ = some (⟨some id, 1⟩, rest)
      ∧ id.toNat = upToLast.exact 9 drawn := by
  obtain ⟨-, drawing⟩ := identities_exact 1 upToLast
  have accepted : (shared 1 upToLast).check = .ok () := rfl
  obtain ⟨drawn, id, rest, within, hnext, hexact⟩ := drawing 9 ⟨[0xffffffffffffffff], 0⟩
  exact ⟨accepted, by decide, drawn, id, rest, within, hnext, (hexact accepted).1⟩

end Workload

end LoadTest
