import LoadTest.Format.Source
import LoadTest.Json.Reader

/-!
# LoadTest.Format.Json

JSON as a data format. A word is text only in quotes, integers have neither point nor exponent, a record
may be a row, and brackets nest less than 128 deep around what is kept.
-/

namespace LoadTest.Json

open LoadTest.Format

mutual

/-- What a value says of itself. Numbers out of range and quoted bytes that are no text say nothing. -/
def content? : Json → Option Content
  | .null => some .null
  | .bool b => some (.bool b)
  | .number numeral =>
      match numeral.meaning? with
      | some (.natural n) => some (.integer n.toNat)
      | some (.negative i) => some (.integer i)
      | some (.double x) => some (.double x)
      | none => none
  | .string s => s.map .text
  | .array items => (itemContents? items).map .list
  | .object members => (memberContents? members).map .map

/-- `content?` for each item. -/
def itemContents? : List Json → Option (List Content)
  | [] => some []
  | item :: items => do
      let item ← content? item
      let items ← itemContents? items
      pure (item :: items)

/-- `content?` for each member. -/
def memberContents? : List (Option String × Json) → Option (List (Content × Content))
  | [] => some []
  | (key, value) :: members => do
      let key ← key
      let value ← content? value
      let members ← memberContents? members
      pure ((.text key, value) :: members)

end

/-- Brackets nest less deep than this around a value that is kept. -/
def depthLimit : Nat := 127

/-- The members with their keys, which are texts. -/
def textMembers? (members : List (Option String × Json)) : Option (List (Content × Json)) :=
  members.mapM fun (key, value) => key.map fun key => (Content.text key, value)

instance : Source Json where
  absent?
    | .null => some true
    | _ => some false
  text?
    | .string s => s
    | _ => none
  bool?
    | .bool b => some b
    | _ => none
  integer?
    | .number numeral =>
        match numeral.meaning? with
        | some (.natural n) => some n.toNat
        | some (.negative i) => some i
        | _ => none
    | _ => none
  double?
    | .number numeral =>
        match numeral.meaning? with
        | some (.natural n) => some (Binary64.ofNat n.toNat)
        | some (.negative i) => some (Binary64.ofQuotient true i.natAbs 1)
        | some (.double x) => some x
        | none => none
    | _ => none
  items?
    | .array items => some items
    | _ => none
  members?
    | .object members => textMembers? members
    | _ => none
  row?
    | .array items => some items
    | _ => none
  parts?
    | .array items => some (.items items)
    | .object members => (textMembers? members).map .members
    | _ => none
  content? outer json := if fitsDepth (depthLimit - outer) json then json.content? else none

end LoadTest.Json
