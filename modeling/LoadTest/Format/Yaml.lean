import LoadTest.Format.Source
import LoadTest.Yaml.Node.Reader
import LoadTest.Yaml.Word

/-!
# LoadTest.Format.Yaml

YAML as a data format. **What is wanted of a scalar decides what it is:** any scalar is a text, and one
without quotes may be a number or a truth value as well. Tags of an application bar a value from
describing itself; those of YAML itself say what it is. A record is never a row. Brackets nest at most 128
deep around what is kept, references included, and references may make a document at most so many times
as large.
-/

namespace LoadTest.Yaml

open LoadTest.Format

/-- A node of a document. -/
structure Value where
  document : Document
  node : Node

namespace Value

/-- The whole of a document. -/
def ofText? (text : String) : Option Value := do
  let document ← Document.ofText? text
  pure ⟨document, document.root⟩

/-- The node that the value stands for. -/
def target? (value : Value) : Option Node := value.document.resolve? value.node

/-! ### Scalars -/

/-- The tag of YAML itself for one kind of scalar. -/
def coreTag (kind : String) : String := "tag:yaml.org,2002:" ++ kind

/-- The text of a scalar that may be read as a kind other than text: one without quotes, or one in
indented lines that are kept and whose tag says that kind. -/
def readable? (kind : String) : Node → Option String
  | .scalar _ .plain text => some text
  | .scalar (some tag) .literal text => if tag = coreTag kind then some text else none
  | _ => none

/-- Whether a node is left out, or is a scalar with nothing in it and no quotes. -/
def isBlank : Node → Bool
  | .scalar _ .plain text => text.isEmpty
  | _ => false

/-- Whether a node counts as absent. One that claims to be nothing and is not is an error. -/
def isAbsent? : Node → Option Bool
  | .scalar none .plain text => some (text.isEmpty || Word.isNull text)
  | .scalar (some tag) .plain text =>
      if tag = coreTag "null" then (if Word.isNull text then some true else none) else some false
  | _ => some false

/-! ### Content -/

/-- Whether a tag is one of an application. -/
def isApplicationTag (tag : Option String) : Bool := tag.any fun tag => tag.toList.head? == some '!'

/-- The integer that a word means as content; words for integers of more than 64 bits say nothing. -/
def integerContent? (word : String) : Option (Option Content) :=
  match Word.natural? word, Word.negative? word with
  | some n, _ =>
      if n < UInt64.size then some (some (.integer n)) else if n < 1 <<< 128 then some none else none
  | none, some i =>
      if -signedLimit ≤ i then some (some (.integer i))
      else if -(1 <<< 127 : Nat) ≤ i then some none else none
  | none, none => none

/-- What a word without quotes says of itself. -/
def wordContent? (word : String) : Option Content :=
  if word.isEmpty || Word.isNull word then some .null
  else
    match Word.bool? word, integerContent? word with
    | some b, _ => some (.bool b)
    | none, some content => content
    | none, none =>
        match if Word.isZeroPadded word.toList then none else Word.double? word with
        | some x => some (.double x)
        | none => some (.text word)

/-- What a scalar says of itself. -/
def scalarContent? (tag : Option String) (style : Style) (text : String) : Option Content :=
  match tag with
  | none => if style = .plain then wordContent? text else some (.text text)
  | some tag =>
      if isApplicationTag (some tag) then none
      else if tag = coreTag "bool" then (Word.bool? text).map .bool
      else if tag = coreTag "int" then (integerContent? text).join
      else if tag = coreTag "float" then (Word.double? text).map .double
      else if tag = coreTag "null" then (if Word.isNull text then some .null else none)
      else some (.text text)

/-- Spends one reference of those that are left. -/
def spendReference : StateT Nat Option Unit := do
  match ← get with
  | 0 => failure
  | left + 1 => set left

/-- What a node says of itself, inside of brackets that leave room for so many more. -/
def nodeContent? (document : Document) : Nat → Node → StateT Nat Option Content
  | room, node => do
      if let .reference _ := node then spendReference
      match room, ← document.resolve? node with
      | _, .scalar tag style text => scalarContent? tag style text
      | room + 1, .sequence tag items =>
          if isApplicationTag tag then failure
          return .list (← items.mapM (nodeContent? document room))
      | room + 1, .mapping tag members =>
          if isApplicationTag tag then failure
          return .map (← members.mapM fun (key, value) => do
            pure (← nodeContent? document room key, ← nodeContent? document room value))
      | _, _ => failure

/-- Brackets nest at most this deep around a value that is kept. -/
def depthLimit : Nat := 128

/-- How many references may be followed for a value. -/
def referenceLimit (document : Document) : Nat := 100 * document.root.size

end Value

/-! ### The format -/

open Value

/-- The text of a node. -/
def Node.text? : Node → Option String
  | .scalar _ _ text => some text
  | _ => none

instance : Source Value where
  absent? value := value.target?.bind isAbsent?
  text? value := value.target?.bind Node.text?
  bool? value := do Word.bool? (← readable? "bool" (← value.target?))
  integer? value := do
    let word ← readable? "int" (← value.target?)
    (Word.natural? word).map Int.ofNat <|> Word.negative? word
  natural? value := do Word.natural? (← readable? "int" (← value.target?))
  double? value := do Word.double? (← readable? "float" (← value.target?))
  items? value := do
    match ← value.target? with
    | .sequence _ items => pure (items.map fun item => ⟨value.document, item⟩)
    | node => if isBlank node then pure [] else none
  members? value := do
    match ← value.target? with
    | .mapping _ members =>
        members.mapM fun (key, member) => do
          let key ← (← value.document.resolve? key).text?
          pure (.text key, ⟨value.document, member⟩)
    | node => if isBlank node then pure [] else none
  row? _ := none
  parts? value := do
    match ← value.target? with
    | .sequence tag items =>
        if isApplicationTag tag then none
        else pure (.items (items.map fun item => ⟨value.document, item⟩))
    | .mapping tag members =>
        if isApplicationTag tag then none
        else
          pure (.members (← members.mapM fun (key, member) => do
            let content := nodeContent? value.document (depthLimit - 2) key
            pure (← content.run' (referenceLimit value.document), ⟨value.document, member⟩)))
    | _ => none
  content? outer value :=
    (nodeContent? value.document (depthLimit - outer) value.node).run' (referenceLimit value.document)

end LoadTest.Yaml
