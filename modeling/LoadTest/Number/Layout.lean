import LoadTest.Number.Shortest

/-!
# LoadTest.Number.Layout

Texts of doubles. The digits are the shortest that read back (`Binary64.shortest`); a `Layout` says
where the positional form ends and whether a whole number keeps a point. A fixed number of places is a
rule of its own: the exact value rounded at that place, a half going to the even neighbour.
-/

namespace LoadTest.Binary64

/-- How a finite double is written. The *place* of a number `0.ddd… * 10 ^ p` is `p`. -/
structure Layout where
  /-- Least place written without an exponent; `none` if there is no such end. -/
  leastPlace : Option Int
  /-- Greatest place written without an exponent; `none` if there is no such end. -/
  greatestPlace : Option Int
  /-- Whether a whole number is followed by `.0`. -/
  point : Bool

/-- Every number in positional form, whole numbers without a point. -/
def Layout.plain : Layout := ⟨none, none, false⟩

/-- Positional from `0.0001` to below `10 ^ 16`, with a point always. -/
def Layout.tagged : Layout := ⟨some (-3), some 16, true⟩

/-- Positional from `0.00001` to below `10 ^ 16`, with a point always. -/
def Layout.data : Layout := ⟨some (-4), some 16, true⟩

/-- The digits of a decimal number without zeros at the end, and its place. -/
def significant (d : Decimal) : List Char × Int :=
  let all := Nat.toDigits 10 d.digits
  let kept := (all.reverse.dropWhile (· = '0')).reverse
  (kept, d.exponent + all.length)

/-- Digits with the point at `place`, filled up with zeros. -/
def positional (point : Bool) (digits : List Char) (place : Int) : String :=
  if place ≤ 0 then String.ofList ("0.".toList ++ List.replicate (-place).toNat '0' ++ digits)
  else
    let n := place.toNat
    if digits.length ≤ n then
      String.ofList (digits ++ List.replicate (n - digits.length) '0') ++ (if point then ".0" else "")
    else String.ofList (digits.take n ++ '.' :: digits.drop n)

/-- Digits with the point after the first of them, and an exponent. -/
def scientific (digits : List Char) (place : Int) : String :=
  match digits with
  | [] => "0"
  | d :: rest =>
      let mantissa := if rest.isEmpty then [d] else d :: '.' :: rest
      String.ofList mantissa ++ "e" ++ toString (place - 1)

/-- Whether a number of a place is written without an exponent. -/
def Layout.isPositional (layout : Layout) (place : Int) : Bool :=
  (layout.leastPlace.all fun least => decide (least ≤ place))
    && (layout.greatestPlace.all fun greatest => decide (place ≤ greatest))

/-- The text of a magnitude of so many units. -/
def Layout.magnitude (layout : Layout) (units : Nat) : String :=
  if units = 0 then (if layout.point then "0.0" else "0")
  else
    let (digits, place) := significant (shortest units)
    if layout.isPositional place then positional layout.point digits place else scientific digits place

/-- The text of a double in a layout. -/
def Layout.text (layout : Layout) : Binary64 → String
  | .nan => "NaN"
  | .infinite negative => if negative then "-inf" else "inf"
  | .finite negative units _ => (if negative then "-" else "") ++ layout.magnitude units

/-- The text in positional form, such as `300` and `0.1`. -/
def plainText (x : Binary64) : String := Layout.plain.text x

/-- The text that shows a double to be one, such as `300.0` and `1e21`. -/
def taggedText (x : Binary64) : String := Layout.tagged.text x

/-- A whole number written with its last `places` digits after a point. -/
def pointed (places n : Nat) : String :=
  if places = 0 then toString n
  else
    let fraction := Nat.toDigits 10 (n % Nat.pow 10 places)
    toString (n / Nat.pow 10 places) ++ "."
      ++ String.ofList (List.replicate (places - fraction.length) '0' ++ fraction)

/-- The text with a fixed number of places after the point. -/
def fixedText (places : Nat) : Binary64 → String
  | .nan => "NaN"
  | .infinite negative => if negative then "-inf" else "inf"
  | .finite negative units _ =>
      (if negative then "-" else "") ++ pointed places (roundDiv (units * Nat.pow 10 places) one)

end LoadTest.Binary64
