import LoadTest.Yaml.Node.Basic
import LoadTest.Yaml.Token.Lexer

/-!
# LoadTest.Yaml.Node.Reader

The tree of some tokens. **A text holds at most one document,** and no document at all is an empty node.
Where a node may be left out an empty one stands for it. Names of anchors may be given again; the number
of a name is how many other names were known when it was given.
-/

namespace LoadTest.Yaml

/-- How far the tokens have been read. -/
structure NodeReader where
  tokens : List Token
  /-- The handles of tags and what they stand for. -/
  handles : List (String × String)
  /-- The numbers of the names of anchors. -/
  numbers : List (String × Nat) := []
  anchored : Array (Nat × Node) := #[]

/-- A step of reading, which may fail. -/
abbrev Reading := StateT NodeReader Option

namespace Reading

/-- The next token. -/
def peek : Reading (Option Token) := do return (← get).tokens.head?

/-- Goes on behind the next token. -/
def drop : Reading Unit := modify fun reader => { reader with tokens := reader.tokens.drop 1 }

/-- The number of an anchor that is known. -/
def number (name : String) : Reading Nat := do
  match (← get).numbers.lookup name with
  | some n => pure n
  | none => failure

/-- Gives a name to a node that is still to be read, and the place of that node. -/
def beginAnchor (name : String) : Reading Nat := do
  let reader ← get
  let number := reader.numbers.length
  set { reader with
    numbers := (name, number) :: reader.numbers.filter fun entry => entry.1 != name
    anchored := reader.anchored.push (number, .empty) }
  pure reader.anchored.size

/-- Puts a node at the place of its anchor. -/
def endAnchor (place : Option Nat) (node : Node) : Reading Unit :=
  match place with
  | none => pure ()
  | some place =>
      modify fun reader => { reader with
        anchored := reader.anchored.modify place fun entry => (entry.1, node) }

/-- The tag that a handle and an ending stand for. -/
def expandTag (handle ending : String) : Reading String := do
  if handle.isEmpty then pure ending
  else
    match (← get).handles.lookup handle with
    | some expansion => pure (expansion ++ ending)
    | none => failure

/-- An anchor before a node. -/
def anchor? : Reading (Option String) := do
  match ← peek with
  | some (.anchor name) => drop; pure (some name)
  | _ => pure none

/-- A tag before a node. -/
def tag? : Reading (Option (String × String)) := do
  match ← peek with
  | some (.tag handle ending) => drop; pure (some (handle, ending))
  | _ => pure none

/-- The anchor and the tag before a node, in either order. -/
def properties : Reading (Option String × Option (String × String)) := do
  match ← anchor? with
  | some name => pure (some name, ← tag?)
  | none =>
      let tag ← tag?
      pure (← if tag.isSome then anchor? else pure none, tag)

/-- The tag of a scalar, for which a lone exclamation mark is none. -/
def scalarTag (tag : Option String) : Option String := tag.filter (· != "!")

/-- Whether the next token is one of some. -/
def isNext (tokens : List Token) : Reading Bool := do
  return (← peek).any tokens.contains

/-- What ends an item or a member of a block collection before its node. -/
def blockEnds : List Token := [.key, .value, .blockEnd]

mutual

/-- A node. `block` says whether it may be a block collection, `loose` whether items without indentation
may be it. -/
def node (block loose : Bool) : Nat → Reading Node
  | 0 => failure
  | fuel + 1 => do
      match ← peek with
      | some (.reference name) =>
          drop
          pure (.reference (← number name))
      | _ =>
          let (anchor, tag) ← properties
          let place ← anchor.mapM beginAnchor
          let tag ← tag.mapM fun (handle, ending) => expandTag handle ending
          let node ← body block loose (place.isSome || tag.isSome) tag fuel
          endAnchor place node
          pure node

/-- What follows the anchor and the tag of a node; behind one of these it may be nothing. -/
def body (block loose begun : Bool) (tag : Option String) : Nat → Reading Node
  | 0 => failure
  | fuel + 1 => do
      match ← peek, block, loose with
      | some .item, _, true => return .sequence tag (← looseItems fuel)
      | some (.scalar style text), _, _ => drop; return .scalar (scalarTag tag) style text
      | some .flowSequence, _, _ => drop; return .sequence tag (← flowItems true fuel)
      | some .flowMapping, _, _ => drop; return .mapping tag (← flowMembers true fuel)
      | some .blockSequence, true, _ => drop; return .sequence tag (← blockItems fuel)
      | some .blockMapping, true, _ => drop; return .mapping tag (← blockMembers fuel)
      | _, _, _ => if begun then return .scalar tag .plain "" else failure

/-- The items of a block sequence. -/
def blockItems : Nat → Reading (List Node)
  | 0 => failure
  | fuel + 1 => do
      match ← peek with
      | some .item =>
          drop
          let item ← if ← isNext [.item, .blockEnd] then pure .empty else node true false fuel
          return item :: (← blockItems fuel)
      | some .blockEnd => drop; pure []
      | _ => failure

/-- The items of a sequence that is not indented. -/
def looseItems : Nat → Reading (List Node)
  | 0 => failure
  | fuel + 1 => do
      match ← peek with
      | some .item =>
          drop
          let item ← if ← isNext (.item :: blockEnds) then pure .empty else node true false fuel
          return item :: (← looseItems fuel)
      | _ => pure []

/-- The members of a block mapping. -/
def blockMembers : Nat → Reading (List (Node × Node))
  | 0 => failure
  | fuel + 1 => do
      match ← peek with
      | some .key =>
          drop
          let key ← if ← isNext blockEnds then pure .empty else node true true fuel
          let value ← blockValue fuel
          return (key, value) :: (← blockMembers fuel)
      | some .blockEnd => drop; pure []
      | _ => failure

/-- The value of a member of a block mapping. -/
def blockValue : Nat → Reading Node
  | 0 => failure
  | fuel + 1 => do
      match ← peek with
      | some .value =>
          drop
          if ← isNext blockEnds then pure .empty else node true true fuel
      | _ => pure .empty

/-- The items of a sequence in brackets. A key among them makes a mapping of one member. -/
def flowItems (first : Bool) : Nat → Reading (List Node)
  | 0 => failure
  | fuel + 1 => do
      if ← isNext [.flowSequenceEnd] then
        drop
        return []
      unless first do
        if ← isNext [.comma] then drop else failure
      match ← peek with
      | some .key =>
          drop
          let member ← flowPair fuel
          return .mapping none [member] :: (← flowItems false fuel)
      | some .flowSequenceEnd => drop; return []
      | _ =>
          let item ← node false false fuel
          return item :: (← flowItems false fuel)

/-- A member among the items of a sequence in brackets. Where its key is left out the token behind the mark
of the key is lost. -/
def flowPair : Nat → Reading (Node × Node)
  | 0 => failure
  | fuel + 1 => do
      let key ← if ← isNext [.value, .comma, .flowSequenceEnd] then
          drop
          pure .empty
        else node false false fuel
      let value ← flowValue [.comma, .flowSequenceEnd] fuel
      return (key, value)

/-- The members of a mapping in brackets. -/
def flowMembers (first : Bool) : Nat → Reading (List (Node × Node))
  | 0 => failure
  | fuel + 1 => do
      if ← isNext [.flowMappingEnd] then
        drop
        return []
      unless first do
        if ← isNext [.comma] then drop else failure
      match ← peek with
      | some .key =>
          drop
          let key ← if ← isNext [.value, .comma, .flowMappingEnd] then pure .empty
            else node false false fuel
          let value ← flowValue [.comma, .flowMappingEnd] fuel
          return (key, value) :: (← flowMembers false fuel)
      | some .flowMappingEnd => drop; return []
      | _ =>
          let key ← node false false fuel
          return (key, .empty) :: (← flowMembers false fuel)

/-- The value of a member in brackets, which some tokens end. -/
def flowValue (ends : List Token) : Nat → Reading Node
  | 0 => failure
  | fuel + 1 => do
      if ← isNext [.value] then
        drop
        if ← isNext ends then pure .empty else node false false fuel
      else pure .empty

end

/-! ### Documents -/

/-- The handles that need no directive. -/
def standardHandles : List (String × String) := [("!", "!"), ("!!", "tag:yaml.org,2002:")]

/-- Reads directives. `versioned` says whether one named a version before; only one may, and only 1.1 or
1.2. No handle may be given twice. -/
def directives (versioned : Bool) (handles : List (String × String)) :
    Nat → Reading (List (String × String))
  | 0 => failure
  | fuel + 1 => do
      match ← peek with
      | some (.version major minor) =>
          if versioned || major != 1 || !(minor == 1 || minor == 2) then failure
          drop
          directives true handles fuel
      | some (.handle name expansion) =>
          if (handles.lookup name).isSome then failure
          drop
          directives versioned (handles ++ [(name, expansion)]) fuel
      | _ => pure handles

/-- Whether a token can begin a document only behind a marker. -/
def announces : Token → Bool
  | .version .. | .handle .. | .documentStart => true
  | _ => false

/-- The node of a document, behind its marker if it has one. -/
def root (fuel : Nat) : Reading Node := do
  match ← peek with
  | none => pure .empty
  | some token =>
      if announces token then
        let handles ← directives false [] fuel
        modify fun reader => { reader with handles := handles ++ standardHandles }
        if ← isNext [.documentStart] then drop else failure
        match ← peek with
        | none | some .documentEnd => pure .empty
        | some token => if announces token then pure .empty else node true false fuel
      else node true false fuel

end Reading

/-- The only document of some tokens. -/
def Document.ofTokens? (tokens : List Token) : Option Document := do
  let start : NodeReader := ⟨tokens, Reading.standardHandles, [], #[]⟩
  let (root, reader) ← (Reading.root (3 * tokens.length + 3)).run start
  if reader.tokens.all (· == .documentEnd) then pure ⟨root, reader.anchored⟩ else none

/-- The document of a text. -/
def Document.ofText? (text : String) : Option Document := do Document.ofTokens? (← tokens? text)

end LoadTest.Yaml
