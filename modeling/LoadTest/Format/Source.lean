import LoadTest.Number.Numeral

/-!
# LoadTest.Format.Source

What a configuration needs of the data format it is written in. Formats differ in what a plain word is,
so **a value is always read as something:** as text, as a number, as a list. `Content` is what a value
says of itself, for the places where the form of a value decides what it is.
-/

namespace LoadTest.Format

/-- A value as it describes itself. -/
inductive Content where
  | null
  | bool (value : Bool)
  | integer (value : Int)
  | double (value : Binary64)
  | text (value : String)
  | list (items : List Content)
  | map (members : List (Content × Content))
  deriving Inhabited

/-- The parts of a value that describes itself as a list or a map. -/
inductive Parts (σ : Type) where
  | items (items : List σ)
  | members (members : List (Content × σ))

/-- The reading operations of a data format. Each gives nothing if the value cannot be read so. -/
class Source (σ : Type) where
  /-- Whether the value counts as absent where one may be. -/
  absent? : σ → Option Bool
  text? : σ → Option String
  bool? : σ → Option Bool
  integer? : σ → Option Int
  /-- Integers where a sign has no place. -/
  natural? : σ → Option Nat := fun value => (integer? value).bind Int.toNat?
  double? : σ → Option Binary64
  items? : σ → Option (List σ)
  /-- Keys and values, in order. A key is a text or, where keys describe themselves, a number. -/
  members? : σ → Option (List (Content × σ))
  /-- The values of a record that is written as a list of them. -/
  row? : σ → Option (List σ)
  /-- Items or members, if the value describes itself as a list or a map. -/
  parts? : σ → Option (Parts σ)
  /-- What the value says of itself, inside of so many other brackets. -/
  content? : Nat → σ → Option Content

export Source (absent? text? bool? integer? natural? double? items? members? row? parts? content?)

instance : Source Content where
  absent?
    | .null => some true
    | _ => some false
  text?
    | .text s => some s
    | _ => none
  bool?
    | .bool b => some b
    | _ => none
  integer?
    | .integer i => some i
    | _ => none
  double?
    | .double x => some x
    | .integer i => some (Binary64.ofQuotient (decide (i < 0)) i.natAbs 1)
    | _ => none
  items?
    | .list items => some items
    | _ => none
  members?
    | .map members => some members
    | _ => none
  row?
    | .list items => some items
    | _ => none
  parts?
    | .list items => some (.items items)
    | .map members => some (.members members)
    | _ => none
  content? _ c := some c

section

variable {σ α : Type} [Source σ]

/-- A natural number of 64 bits. -/
def word? (value : σ) : Option UInt64 := do
  let n ← natural? value
  if n < UInt64.size then some (UInt64.ofNat n) else none

/-- A signed integer of 64 bits. -/
def signed? (value : σ) : Option Int := do
  let i ← integer? value
  if -signedLimit ≤ i ∧ i < signedLimit then some i else none

/-- A value that may be absent. -/
def optional? (read : σ → Option α) (value : σ) : Option (Option α) :=
  (absent? value).bind fun absent => if absent then some none else (read value).map some

/-- A list of values of one kind. -/
def list? (read : σ → Option α) (value : σ) : Option (List α) := do (← items? value).mapM read

/-- Values of one kind under text keys. -/
def entries? (read : σ → Option α) (value : σ) : Option (List (String × α)) := do
  (← members? value).mapM fun (key, value) => do
    match key with
    | .text name => pure (name, ← read value)
    | _ => none

end

/-! ### Records -/

/-- A field of a record: its name and the other spellings of it. -/
structure Field where
  name : String
  aliases : List String := []

/-- Whether a key names a field. -/
def Field.isNamed (field : Field) (key : String) : Bool :=
  field.name == key || field.aliases.contains key

/-- The values found for the fields of a record. In a record written as a row every field without a
default has to be there. -/
structure Record (σ : Type) where
  row : Bool
  values : List (String × Option σ)

namespace Record

variable {σ α : Type} [Source σ]

/-- The position of the field that a key names, if it names one. Fields may also be named by their
position; no other keys are keys of records. -/
def indexOf? (fields : List Field) : Content → Option (Option Nat)
  | .text key => some (fields.findIdx? (·.isNamed key))
  | .integer i =>
      if i < 0 then none else if i < fields.length then some (some i.toNat) else some none
  | _ => none

/-- The record of some members. Members of no field are skipped, a field given twice is an error. -/
def ofMembers? (fields : List Field) (members : List (Content × σ)) : Option (Record σ) := do
  let found ← members.mapM fun (key, value) => (indexOf? fields key).map fun i => (i, value)
  let values ← fields.zipIdx.mapM fun (field, i) =>
    match found.filter fun entry => entry.1 == some i with
    | [] => some (field.name, none)
    | [entry] => some (field.name, some entry.2)
    | _ => none
  pure ⟨false, values⟩

/-- The record of a row of values, which are those of the first fields. -/
def ofRow? (fields : List Field) (items : List σ) : Option (Record σ) :=
  if items.length ≤ fields.length then
    some ⟨true, fields.zipIdx.map fun (field, i) => (field.name, items[i]?)⟩
  else none

/-- The record that a value is. -/
def ofSource? (fields : List Field) (value : σ) : Option (Record σ) :=
  match members? value, row? value with
  | some members, _ => ofMembers? fields members
  | none, some items => ofRow? fields items
  | none, none => none

/-- The value of a field, if it was given. -/
def given? (record : Record σ) (name : String) : Option σ :=
  (record.values.find? fun entry => entry.1 == name).bind (·.2)

/-- A field that has to be there. -/
def required? (record : Record σ) (name : String) (read : σ → Option α) : Option α :=
  (record.given? name).bind read

/-- A field that takes a default if it is not there. -/
def withDefault? (record : Record σ) (name : String) (default : α) (read : σ → Option α) : Option α :=
  match record.given? name with
  | some value => read value
  | none => some default

/-- A field whose value may be absent, as may the field itself unless the record is a row. -/
def maybe? (record : Record σ) (name : String) (read : σ → Option α) : Option (Option α) :=
  match record.given? name with
  | some value => optional? read value
  | none => if record.row then none else some none

end Record

end LoadTest.Format
