import LoadTest.Number.Binary64

/-!
# LoadTest.Number.Numeral

Reading numerals. A decimal numeral is an optional sign, digits with at most one point among or
around them, and an optional exponent; `inf`, `infinity` and `nan` are read in any case. **A numeral
denotes the double nearest to its exact value**, whatever its length.
-/

namespace LoadTest

namespace Numeral

/-- One of the ten ASCII digits. -/
def isDigit (c : Char) : Bool := decide ('0' ≤ c) && decide (c ≤ '9')

/-- The value of a digit. -/
def digitValue (c : Char) : Nat := c.toNat - '0'.toNat

/-- The number that a row of digits denotes in base ten. -/
def value (digits : List Char) : Nat := digits.foldl (fun n c => 10 * n + digitValue c) 0

/-- The leading digits and what follows them. -/
def takeDigits (cs : List Char) : List Char × List Char := (cs.takeWhile isDigit, cs.dropWhile isDigit)

/-- An optional sign, and what follows it; `true` for a minus. -/
def takeSign : List Char → Bool × List Char
  | '-' :: cs => (true, cs)
  | '+' :: cs => (false, cs)
  | cs => (false, cs)

/-- The ASCII letters in lower case; all else unchanged. -/
def lowerAscii (c : Char) : Char := if 'A' ≤ c ∧ c ≤ 'Z' then Char.ofNat (c.toNat + 32) else c

/-- An exponent, with its mark, that ends the text; nothing at all is exponent zero. -/
def exponent? : List Char → Option Int
  | [] => some 0
  | mark :: cs =>
      if mark = 'e' ∨ mark = 'E' then
        let (negative, rest) := takeSign cs
        let (digits, rest) := takeDigits rest
        if digits.isEmpty ∨ ¬ rest.isEmpty then none
        else some (if negative then -(value digits : Int) else (value digits : Int))
      else none

/-- A numeral without its sign, up to the end of the text. -/
def unsigned? (negative : Bool) (cs : List Char) : Option Binary64 :=
  let (whole, rest) := takeDigits cs
  let (fraction, rest) :=
    match rest with
    | '.' :: rest => takeDigits rest
    | rest => ([], rest)
  if whole.isEmpty ∧ fraction.isEmpty then none
  else do
    let e ← exponent? rest
    pure (Binary64.ofDecimal negative (value (whole ++ fraction)) (e - fraction.length))

/-- The words for numbers that have no digits, in lower case. -/
def special? (negative : Bool) (word : List Char) : Option Binary64 :=
  if word = "inf".toList ∨ word = "infinity".toList then some (.infinite negative)
  else if word = "nan".toList then some .nan
  else none

end Numeral

/-- The double that a whole text denotes, if it is a numeral. -/
def Binary64.ofList? (cs : List Char) : Option Binary64 :=
  let (negative, rest) := Numeral.takeSign cs
  match Numeral.unsigned? negative rest with
  | some x => some x
  | none => Numeral.special? negative (rest.map Numeral.lowerAscii)

/-- The double that a whole text denotes, if it is a numeral. -/
def Binary64.ofString? (s : String) : Option Binary64 := Binary64.ofList? s.toList

/-- The natural number below `bound` that a row of digits, after an optional plus, denotes. -/
def natBelow? (bound : Nat) (cs : List Char) : Option Nat :=
  let digits := match cs with
    | '+' :: cs => cs
    | cs => cs
  if digits.isEmpty ∨ ¬ digits.all Numeral.isDigit then none
  else if Numeral.value digits < bound then some (Numeral.value digits) else none

/-- Signed integers of 64 bits are below this number, and not below its negative. -/
def signedLimit : Nat := 1 <<< 63

/-- The integer from `-bound` to below `bound` that a row of digits, after an optional sign, denotes. -/
def intWithin? (bound : Nat) (cs : List Char) : Option Int :=
  match cs with
  | '-' :: digits =>
      if digits.isEmpty ∨ ¬ digits.all Numeral.isDigit then none
      else if Numeral.value digits ≤ bound then some (-(Numeral.value digits : Int)) else none
  | cs => (natBelow? bound cs).map Int.ofNat

end LoadTest
