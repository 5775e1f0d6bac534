import LoadTest.Number.Layout
import LoadTest.Table

/-!
# LoadTest.Json.Value

JSON documents as syntax. A number keeps its digits and a quoted text may fail to be valid text, since
whether that matters is for whoever uses the value to say: **a member that nobody reads only has to be
well formed.** `Numeral.meaning?` and the `Option` in `Json.string` are where use can fail.
-/

namespace LoadTest

namespace Json

/-- A number as it is written. `fraction` is empty when there is no point. -/
structure Numeral where
  negative : Bool
  whole : List Nat
  fraction : List Nat
  exponent : Option Int
  deriving DecidableEq

/-- What a numeral denotes: a natural number of 64 bits, a negative one of 64 bits, or a double. -/
inductive Number where
  | natural (n : UInt64)
  | negative (i : Int)
  | double (x : Binary64)
  deriving DecidableEq

end Json

/-- A JSON value. -/
inductive Json where
  | null
  | bool (value : Bool)
  | number (numeral : Json.Numeral)
  /-- A quoted text; `none` if what is between the quotes is no valid text. -/
  | string (text : Option String)
  | array (items : List Json)
  | object (members : List (Option String × Json))
  deriving Inhabited

namespace Json

/-! ### What a numeral denotes -/

/-- Takes digits into a number as long as it stays below `2 ^ 64`; the digits left over follow. -/
def takeWord (n : Nat) : List Nat → Nat × List Nat
  | [] => (n, [])
  | d :: ds => if 10 * n + d < UInt64.size then takeWord (10 * n + d) ds else (n, d :: ds)

/-- Divides by `10 ^ 308` so many times, or until nothing is left. -/
def shrink (x : Binary64) : Nat → Binary64
  | 0 => x
  | n + 1 => if x.eq 0 then x else shrink (x / Binary64.ofNat (Nat.pow 10 308)) n

/-- A significand of 64 bits scaled by a power of ten, in doubles: the significand is rounded first
and the scaled number again. Numbers past the largest double have no value. -/
def scale? (significand : Nat) (e : Int) : Option Binary64 :=
  let x := Binary64.ofNat significand
  if significand = 0 then some x
  else if 308 < e then none
  else if 0 ≤ e then
    let y := x * Binary64.ofNat (Nat.pow 10 e.toNat)
    if y.isFinite then some y else none
  else
    let n := (-e).toNat
    some (shrink x ((n - 1) / 308) / Binary64.ofNat (Nat.pow 10 (n - 308 * ((n - 1) / 308))))

/-- The number a numeral denotes. Digits beyond 64 bits only count as places. -/
def Numeral.meaning? (numeral : Numeral) : Option Number :=
  let (n, dropped) := takeWord 0 numeral.whole
  if numeral.fraction.isEmpty ∧ numeral.exponent.isNone ∧ dropped.isEmpty then
    if ¬ numeral.negative then some (.natural (UInt64.ofNat n))
    else if 0 < n ∧ n ≤ signedLimit then some (.negative (-n))
    else some (.double (-Binary64.ofNat n))
  else do
    let (m, unused) := takeWord n numeral.fraction
    let places : Int := dropped.length - (numeral.fraction.length - unused.length : Nat)
    let x ← scale? m (places + numeral.exponent.getD 0)
    pure (.double (if numeral.negative then -x else x))

/-! ### Building values -/

/-- The digits of a natural number, first to last. -/
def digitsOf (n : Nat) : List Nat := (Nat.toDigits 10 n).map fun c => c.toNat - '0'.toNat

/-- An integer as a JSON value. -/
def ofInt (i : Int) : Json := .number ⟨decide (i < 0), digitsOf i.natAbs, [], none⟩

/-- A natural number as a JSON value. -/
def ofNat (n : Nat) : Json := ofInt n

/-- A decimal number as a JSON number: with a point, or an exponent outside the positional range. -/
def ofDecimal (negative : Bool) (d : Binary64.Decimal) : Json :=
  let (digits, place) := Binary64.significant d
  let ds := digits.map fun c => c.toNat - '0'.toNat
  if Binary64.Layout.data.isPositional place then
    if place ≤ 0 then .number ⟨negative, [0], List.replicate (-place).toNat 0 ++ ds, none⟩
    else
      let n := place.toNat
      let fraction := ds.drop n
      .number ⟨negative, ds.take n ++ List.replicate (n - ds.length) 0,
        if fraction.isEmpty then [0] else fraction, none⟩
  else .number ⟨negative, ds.take 1, ds.drop 1, some (place - 1)⟩

/-- A double as a JSON value, in the fewest digits; what is not finite has no numeral and becomes `null`. -/
def ofDouble : Binary64 → Json
  | .finite negative units _ =>
      if units = 0 then .number ⟨negative, [0], [0], none⟩ else ofDecimal negative (Binary64.shortest units)
  | _ => .null

/-- A 64-bit number as a JSON value. -/
def ofWord (n : UInt64) : Json := ofNat n.toNat

/-- A text as a JSON value. -/
def ofString (s : String) : Json := .string (some s)

/-- An object with text keys, in the order given. -/
def ofMembers (members : List (String × Json)) : Json :=
  .object (members.map fun (key, value) => (some key, value))

/-- A table as an object, each value written by a function. -/
def ofTable {α : Type} (f : α → Json) (table : Table α) : Json :=
  ofMembers (table.entries.map fun entry => (entry.1, f entry.2))

/-- A value, or `null` if there is none. -/
def ofOption {α : Type} (f : α → Json) : Option α → Json
  | some a => f a
  | none => .null

/-! ### Depth -/

mutual

/-- Whether brackets nest at most `limit` deep. -/
def fitsDepth (limit : Nat) : Json → Bool
  | .array items =>
      match limit with
      | 0 => false
      | limit + 1 => itemsFitDepth limit items
  | .object members =>
      match limit with
      | 0 => false
      | limit + 1 => membersFitDepth limit members
  | _ => true

/-- `fitsDepth` for each item. -/
def itemsFitDepth (limit : Nat) : List Json → Bool
  | [] => true
  | item :: items => fitsDepth limit item && itemsFitDepth limit items

/-- `fitsDepth` for each member. -/
def membersFitDepth (limit : Nat) : List (Option String × Json) → Bool
  | [] => true
  | (_, value) :: members => fitsDepth limit value && membersFitDepth limit members

end

end Json

end LoadTest
