import LoadTest.Number.Binary64

/-!
# LoadTest.Workload.Random

Uniform draws from a stream of 64-bit words. **A draw from a range of whole numbers rejects words**
until one falls into the zone where every result has equally many words; the stream goes on with zeros
behind its given words, and zero is never rejected, so a draw always ends.
-/

namespace LoadTest.Workload

/-- A stream of words: those given and then zeros. -/
structure Words where
  given : List UInt64
  /-- How many words have been taken. -/
  taken : Nat := 0
  deriving DecidableEq, Inhabited

namespace Words

/-- The next word, and the stream behind it. -/
def next (words : Words) : UInt64 × Words :=
  (words.given.head?.getD 0, ⟨words.given.tail, words.taken + 1⟩)

/-- The largest lower half of a product that is not rejected. -/
def zone (size : Nat) : Nat := size <<< (63 - size.log2) - 1

/-- A number below `size`, which is positive: the upper half of the product of `size` and the first
word that is not rejected. -/
def below (size : Nat) : List UInt64 → Nat → Nat × Words
  | [], taken => (0, ⟨[], taken + 1⟩)
  | word :: given, taken =>
      if word.toNat * size % UInt64.size ≤ zone size then
        (word.toNat * size / UInt64.size, ⟨given, taken + 1⟩)
      else below size given (taken + 1)

/-- A number from `low` to `high`, both included; none if the range is empty. -/
def inRange? (low high : UInt64) (words : Words) : Option (UInt64 × Words) :=
  if high < low then none
  else
    let size := high.toNat - low.toNat + 1
    if size = UInt64.size then some words.next
    else
      let (offset, rest) := below size words.given words.taken
      some (UInt64.ofNat (low.toNat + offset), rest)

/-- A multiple of `2 ^ -53` from zero to below one: the upper bits of the next word. -/
def fraction (words : Words) : Binary64 × Words :=
  let (word, rest) := words.next
  (Binary64.ofQuotient false (word.toNat >>> 11) (1 <<< 53), rest)

end Words

end LoadTest.Workload
