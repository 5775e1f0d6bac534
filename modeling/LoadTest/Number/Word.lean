/-!
# LoadTest.Number.Word

Arithmetic on 64-bit words where the exact result may need more bits. **A checked operation has no result
then, a capped one has the largest word.** Both are read off the exact result, so chains of them are too.
-/

namespace LoadTest.Word

/-- The word of a number, if 64 bits hold it. -/
def ofNat? (n : Nat) : Option UInt64 := if n < UInt64.size then some (.ofNat n) else none

/-- The word of a number; the largest one stands for all beyond. -/
def ofNatCapped (n : Nat) : UInt64 := .ofNat (min n (UInt64.size - 1))

/-- The sum, if 64 bits hold it. -/
def add? (a b : UInt64) : Option UInt64 := ofNat? (a.toNat + b.toNat)

/-- The product, if 64 bits hold it. -/
def mul? (a b : UInt64) : Option UInt64 := ofNat? (a.toNat * b.toNat)

/-- The sum, capped. -/
def addCapped (a b : UInt64) : UInt64 := ofNatCapped (a.toNat + b.toNat)

/-- The product, capped. -/
def mulCapped (a b : UInt64) : UInt64 := ofNatCapped (a.toNat * b.toNat)

theorem isSome_ofNat?_iff {n : Nat} : (ofNat? n).isSome = true ↔ n < UInt64.size := by
  unfold ofNat?
  split
  · next h => simp [h]
  · next h => simp [h]

theorem toNat_of_ofNat? {n : Nat} {word : UInt64} (h : ofNat? n = some word) : word.toNat = n := by
  unfold ofNat? at h
  split at h
  · next fits =>
    rw [← Option.some.inj h, UInt64.toNat_ofNat_of_lt' fits]
  · cases h

theorem toNat_ofNatCapped (n : Nat) : (ofNatCapped n).toNat = min n (UInt64.size - 1) :=
  UInt64.toNat_ofNat_of_lt' (Nat.lt_of_le_of_lt (Nat.min_le_right ..) (by decide))

theorem toNat_ofNatCapped_of_lt {n : Nat} (h : n < UInt64.size) : (ofNatCapped n).toNat = n := by
  rw [toNat_ofNatCapped]
  exact Nat.min_eq_left (Nat.le_pred_of_lt h)

end LoadTest.Word
