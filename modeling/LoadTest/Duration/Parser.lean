import LoadTest.Duration.Basic
import LoadTest.Text.Blank

/-!
# LoadTest.Duration.Parser

Durations as people write them: a numeral and a unit, `ms`, `s`, `m` or `h`; without a unit the number
counts milliseconds. Blanks may stand around the text and before the unit. **The number of seconds is
computed in doubles** and then rounded to the nanosecond.
-/

namespace LoadTest.Duration

/-- The units, with the seconds in one of them. A unit that ends like another comes first. -/
def units : List (String × Binary64) := [("ms", 0.001), ("s", 1), ("m", 60), ("h", 3600)]

/-- The text before the unit and the seconds that one of it counts. -/
def splitUnit (cs : List Char) : List Char × Binary64 :=
  let found := units.findSome? fun (unit, seconds) =>
    (Text.dropTail? unit.toList cs).map fun number => (number, seconds)
  found.getD (cs, 0.001)

/-- The duration a text denotes. -/
def ofText? (s : String) : Option Duration := do
  let (number, seconds) := splitUnit (Text.trimList s.toList)
  let value ← Binary64.ofList? (Text.trimList number)
  ofSeconds? (value * seconds)

end LoadTest.Duration
