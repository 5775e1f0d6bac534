import LoadTest.Workload.Random

/-!
# LoadTest.Proofs.Workload.Random

Where a uniform draw ends up. **A draw from a range succeeds exactly if the range is not empty, and what is
drawn lies in it** (`inRange?_eq_none_iff`, `mem_of_inRange?`). Rejected words only delay a draw: whichever
word is taken in the end, the upper half of its product with the size is less than the size.
-/

namespace LoadTest.Workload.Words

/-- The upper half of the product with a word is less than what the word was multiplied with. -/
theorem mul_div_size_lt (word : UInt64) {size : Nat} (hsize : 0 < size) :
    word.toNat * size / UInt64.size < size := by
  refine Nat.div_lt_of_lt_mul ?_
  exact Nat.mul_lt_mul_of_pos_right word.toNat_lt hsize

/-- However many words are rejected, the number drawn is below the size. -/
theorem below_lt {size : Nat} (hsize : 0 < size) (given : List UInt64) (taken : Nat) :
    (below size given taken).1 < size := by
  induction given generalizing taken with
  | nil => exact hsize
  | cons word given ih =>
      rw [below]
      split
      · exact mul_div_size_lt word hsize
      · exact ih (taken + 1)

variable {low high drawn : UInt64} {words rest : Words}

/-- Only an empty range has nothing to draw. -/
theorem inRange?_eq_none_iff : words.inRange? low high = none ↔ high < low := by
  unfold inRange?
  split
  · next empty => exact ⟨fun _ => empty, fun _ => rfl⟩
  · next filled =>
    refine ⟨fun h => ?_, fun empty => absurd empty filled⟩
    dsimp only at h
    split at h <;> cases h

/-- What is drawn from a range lies in it. -/
theorem mem_of_inRange? (h : words.inRange? low high = some (drawn, rest)) : low ≤ drawn ∧ drawn ≤ high := by
  unfold inRange? at h
  split at h
  · cases h
  next filled =>
    have hle : low.toNat ≤ high.toNat := UInt64.le_iff_toNat_le.mp (UInt64.not_lt.mp filled)
    have hhigh : high.toNat < UInt64.size := high.toNat_lt
    simp only [UInt64.le_iff_toNat_le]
    dsimp only at h
    split at h
    · -- Every word lies in a range that has as many numbers as there are words.
      next full =>
        have hdrawn : drawn.toNat < UInt64.size := drawn.toNat_lt
        omega
    · next partly =>
        have hoffset := below_lt (show 0 < high.toNat - low.toNat + 1 by omega) words.given words.taken
        obtain ⟨rfl, -⟩ := Prod.mk.inj (Option.some.inj h)
        rw [UInt64.toNat_ofNat_of_lt' (by omega)]
        omega

end LoadTest.Workload.Words
