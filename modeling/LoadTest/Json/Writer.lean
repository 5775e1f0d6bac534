import LoadTest.Json.Value

/-!
# LoadTest.Json.Writer

JSON values as text: on one line without spaces, or with one member or item a line, indented by two
spaces a level, where empty brackets stay on their line. Only quotes, backslashes and control characters
are escaped.
-/

namespace LoadTest.Json

/-- The lower-case hexadecimal digit of a number below sixteen. -/
def hexChar (n : Nat) : Char := Nat.digitChar (n % 16)

/-- A character inside quotes. -/
def quoteChar (c : Char) : List Char :=
  if c = '"' then ['\\', '"']
  else if c = '\\' then ['\\', '\\']
  else if c = '\n' then ['\\', 'n']
  else if c = '\r' then ['\\', 'r']
  else if c = '\t' then ['\\', 't']
  else if c.toNat = 8 then ['\\', 'b']
  else if c.toNat = 12 then ['\\', 'f']
  else if c.toNat < 32 then ['\\', 'u', '0', '0', hexChar (c.toNat / 16), hexChar c.toNat]
  else [c]

/-- A text in quotes. -/
def quote (s : String) : String := String.ofList ('"' :: s.toList.flatMap quoteChar ++ ['"'])

/-- Digits as text. -/
def digitText (ds : List Nat) : String := String.ofList (ds.map Nat.digitChar)

/-- The text of a numeral. An exponent is written with its sign. -/
def Numeral.text (numeral : Numeral) : String :=
  (if numeral.negative then "-" else "") ++ digitText numeral.whole
    ++ (if numeral.fraction.isEmpty then "" else "." ++ digitText numeral.fraction)
    ++ (match numeral.exponent with
      | some e => (if e < 0 then "e" else "e+") ++ toString e
      | none => "")

/-- What separates the parts of a value: nothing, or a line break and an indentation. -/
structure Spacing where
  /-- Whether each item stands on a line of its own. -/
  lines : Bool
  /-- How many levels the value stands in. -/
  level : Nat

/-- The spacing of the parts of a value. -/
def Spacing.inner (spacing : Spacing) : Spacing := { spacing with level := spacing.level + 1 }

/-- The break before a part at this level. -/
def Spacing.lineBreak (spacing : Spacing) : String :=
  if spacing.lines then "\n" ++ String.ofList (List.replicate (2 * spacing.level) ' ') else ""

/-- What stands between a key and its value. -/
def Spacing.colon (spacing : Spacing) : String := if spacing.lines then ": " else ":"

mutual

/-- The text of a value. -/
def textWith (spacing : Spacing) : Json → String
  | .null => "null"
  | .bool b => if b then "true" else "false"
  | .number numeral => numeral.text
  | .string s => quote (s.getD "")
  | .array [] => "[]"
  | .array (item :: items) =>
      "[" ++ spacing.inner.lineBreak ++ textWith spacing.inner item
        ++ itemsText spacing.inner items ++ spacing.lineBreak ++ "]"
  | .object [] => "\x7b\x7d"
  | .object ((key, value) :: members) =>
      "\x7b" ++ spacing.inner.lineBreak ++ quote (key.getD "") ++ spacing.colon
        ++ textWith spacing.inner value ++ membersText spacing.inner members ++ spacing.lineBreak
        ++ "\x7d"

/-- The text of the items after the first. -/
def itemsText (spacing : Spacing) : List Json → String
  | [] => ""
  | item :: items => "," ++ spacing.lineBreak ++ textWith spacing item ++ itemsText spacing items

/-- The text of the members after the first. -/
def membersText (spacing : Spacing) : List (Option String × Json) → String
  | [] => ""
  | (key, value) :: members =>
      "," ++ spacing.lineBreak ++ quote (key.getD "") ++ spacing.colon ++ textWith spacing value
        ++ membersText spacing members

end

/-- The text of a value on one line. -/
def compact (json : Json) : String := textWith ⟨false, 0⟩ json

/-- The text of a value with a line for each part. -/
def pretty (json : Json) : String := textWith ⟨true, 0⟩ json

end LoadTest.Json
