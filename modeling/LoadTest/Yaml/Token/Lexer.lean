import LoadTest.Yaml.Scalar.Block
import LoadTest.Yaml.Scalar.Plain
import LoadTest.Yaml.Scalar.Quoted
import LoadTest.Yaml.Token.Property

/-!
# LoadTest.Yaml.Token.Lexer

The tokens of a YAML text. **A key is known only by the colon behind it,** so the lexer remembers, for
every bracket that is open, where a key may have begun, and puts its token there when the colon comes.
Such a key ends on its line and is at most 1024 characters long. Outside of brackets the columns of the
open collections close those that are deeper than the line.
-/

namespace LoadTest.Yaml

/-! ### Positions -/

/-- A place in the text. -/
structure Position where
  offset : Nat := 0
  line : Nat := 0
  column : Nat := 0

/-- The place behind a character. -/
def Position.after (position : Position) (c : Char) : Position :=
  if isBreak c then ⟨position.offset + 1, position.line + 1, 0⟩
  else ⟨position.offset + 1, position.line, position.column + 1⟩

/-- A key that may have begun at a place. -/
structure PossibleKey where
  /-- How many tokens stand before it. -/
  index : Nat
  start : Position
  /-- Whether it has to be a key, since its line can be nothing else. -/
  required : Bool

/-- How far a text has been read. -/
structure Lexer where
  position : Position := {}
  rest : List Char
  tokens : Array Token := #[]
  /-- The columns of the open block collections, innermost first. -/
  blocks : List Nat := []
  /-- The key that may have begun inside the innermost bracket. -/
  key : Option PossibleKey := none
  /-- The keys that may have begun outside of each open bracket, innermost first. -/
  outerKeys : List (Option PossibleKey) := []
  /-- Whether a key may begin here. -/
  keyAllowed : Bool := true

namespace Lexer

/-- Whether a bracket is open. -/
def inFlow (lexer : Lexer) : Bool := !lexer.outerKeys.isEmpty

/-- The column where the lines of a scalar begin at least. -/
def margin (lexer : Lexer) : Nat := lexer.blocks.head?.elim 0 (· + 1)

/-- Moves on by so many characters. -/
def advance (lexer : Lexer) (count : Nat) : Lexer :=
  { lexer with
    position := (lexer.rest.take count).foldl Position.after lexer.position
    rest := lexer.rest.drop count }

/-- Moves on to where a rest of the text begins. -/
def goto (lexer : Lexer) (rest : List Char) : Lexer := lexer.advance (lexer.rest.length - rest.length)

/-- Adds a token. -/
def push (lexer : Lexer) (token : Token) : Lexer := { lexer with tokens := lexer.tokens.push token }

/-- Adds a token that is one character long. -/
def pushMark (lexer : Lexer) (token : Token) : Lexer := (lexer.advance 1).push token

@[simp] theorem rest_advance (lexer : Lexer) (count : Nat) :
    (lexer.advance count).rest = lexer.rest.drop count := rfl

/-! ### White space -/

/-- Moves on over a mark of the byte order at the start of the text. -/
def skipByteOrder (lexer : Lexer) : Lexer :=
  if lexer.position.offset == 0 && lexer.rest.head? == some '\ufeff' then lexer.advance 1 else lexer

/-- Moves on over spaces, and over tabs where no key may begin. -/
def skipSpaces (lexer : Lexer) : Lexer :=
  let tabs := lexer.inFlow || !lexer.keyAllowed
  lexer.goto (lexer.rest.dropWhile fun c => c == ' ' || (tabs && c == '\t'))

/-- Moves on over a comment. -/
def skipComment (lexer : Lexer) : Lexer :=
  if lexer.rest.head? == some '#' then lexer.goto (lexer.rest.dropWhile fun c => !isBreak c) else lexer

/-- Moves on over what no token on the line is made of. -/
def skipInLine (lexer : Lexer) : Lexer := lexer.skipByteOrder.skipSpaces.skipComment

theorem length_rest_goto_le (lexer : Lexer) (rest : List Char) :
    (lexer.goto rest).rest.length ≤ lexer.rest.length := by
  simp [goto]

theorem length_rest_skipInLine_le (lexer : Lexer) :
    lexer.skipInLine.rest.length ≤ lexer.rest.length := by
  have h₁ : lexer.skipByteOrder.rest.length ≤ lexer.rest.length := by
    unfold skipByteOrder
    split <;> simp
  have h₂ : lexer.skipByteOrder.skipSpaces.rest.length ≤ lexer.skipByteOrder.rest.length :=
    length_rest_goto_le _ _
  have h₃ : lexer.skipInLine.rest.length ≤ lexer.skipByteOrder.skipSpaces.rest.length := by
    unfold skipInLine skipComment
    split
    · exact length_rest_goto_le _ _
    · exact Nat.le_refl _
  omega

/-- Moves on over white space and comments. A new line may begin with a key, unless a bracket is open. -/
def skipWhite (lexer : Lexer) : Lexer :=
  let next := lexer.skipInLine
  if next.rest.head?.any isBreak then
    skipWhite { next.advance 1 with keyAllowed := next.keyAllowed || !next.inFlow }
  else next
termination_by lexer.rest.length
decreasing_by
  rename_i hb
  have hb : lexer.skipInLine.rest.head?.any isBreak = true := hb
  have := length_rest_skipInLine_le lexer
  simp only [rest_advance, List.length_drop]
  cases h : lexer.skipInLine.rest with
  | nil => simp [h] at hb
  | cons c cs =>
      simp only [h, List.length_cons] at this ⊢
      omega

/-! ### Keys -/

/-- Whether a possible key can no longer be one at a place. -/
def isStale (here : Position) (key : PossibleKey) : Bool :=
  decide (key.start.line < here.line) || decide (key.start.offset + 1024 < here.offset)

/-- The key if it is still possible; an error if it had to be one. -/
def keptKey? (here : Position) : Option PossibleKey → Option (Option PossibleKey)
  | none => some none
  | some key => if isStale here key then (if key.required then none else some none) else some (some key)

/-- Forgets the keys that are no longer possible. -/
def dropStaleKeys? (lexer : Lexer) : Option Lexer := do
  pure { lexer with
    key := ← keptKey? lexer.position lexer.key
    outerKeys := ← lexer.outerKeys.mapM (keptKey? lexer.position) }

/-- Forgets the innermost possible key. -/
def dropKey? (lexer : Lexer) : Option Lexer :=
  if lexer.key.any (·.required) then none else some { lexer with key := none }

/-- Remembers that a key may begin here. -/
def saveKey? (lexer : Lexer) : Option Lexer :=
  if lexer.keyAllowed then do
    let required := !lexer.inFlow && lexer.blocks.head? == some lexer.position.column
    pure { ← lexer.dropKey? with key := some ⟨lexer.tokens.size, lexer.position, required⟩ }
  else some lexer

/-! ### Indentation -/

/-- Opens a block collection at a column, with its token at an index, unless one is open there. -/
def openBlock (lexer : Lexer) (column index : Nat) (token : Token) : Lexer :=
  if !lexer.inFlow && lexer.blocks.head?.all fun outer => decide (outer < column) then
    { lexer with
      blocks := column :: lexer.blocks
      tokens := lexer.tokens.insertIdxIfInBounds index token }
  else lexer

/-- Closes the block collections for which `p` holds of the column. -/
def closeBlocks (lexer : Lexer) (p : Nat → Bool) : Lexer :=
  if lexer.inFlow then lexer
  else
    { lexer with
      blocks := lexer.blocks.dropWhile p
      tokens := lexer.tokens ++ (lexer.blocks.takeWhile p).map fun _ => Token.blockEnd }

/-- Closes all block collections, as a document ends. -/
def endDocument? (lexer : Lexer) : Option Lexer := do
  pure { ← (lexer.closeBlocks fun _ => true).dropKey? with keyAllowed := false }

/-! ### The tokens one by one -/

/-- A marker of a document. -/
def marker? (lexer : Lexer) (token : Token) : Option Lexer := do
  pure ((← lexer.endDocument?).advance 3 |>.push token)

/-- A directive. -/
def directiveLine? (lexer : Lexer) : Option Lexer := do
  let lexer ← lexer.endDocument?
  let (token, rest) ← directive? (lexer.rest.drop 1)
  pure ((lexer.goto rest).push token)

/-- An opening bracket, which may begin a key. -/
def openFlow? (lexer : Lexer) (token : Token) : Option Lexer := do
  let lexer ← lexer.saveKey?
  pure ({ lexer with outerKeys := lexer.key :: lexer.outerKeys, key := none, keyAllowed := true }.pushMark
    token)

/-- A closing bracket. -/
def closeFlow? (lexer : Lexer) (token : Token) : Option Lexer := do
  let lexer ← lexer.dropKey?
  let lexer := match lexer.outerKeys with
    | [] => lexer
    | key :: outerKeys => { lexer with key := key, outerKeys := outerKeys }
  pure ({ lexer with keyAllowed := false }.pushMark token)

/-- A comma. -/
def comma? (lexer : Lexer) : Option Lexer := do
  pure ({ ← lexer.dropKey? with keyAllowed := true }.pushMark .comma)

/-- The mark of an item. -/
def item? (lexer : Lexer) : Option Lexer :=
  if !lexer.inFlow && !lexer.keyAllowed then none
  else do
    let lexer ← (lexer.openBlock lexer.position.column lexer.tokens.size .blockSequence).dropKey?
    pure ({ lexer with keyAllowed := true }.pushMark .item)

/-- The mark of a key. -/
def keyMark? (lexer : Lexer) : Option Lexer :=
  if !lexer.inFlow && !lexer.keyAllowed then none
  else do
    let lexer ← (lexer.openBlock lexer.position.column lexer.tokens.size .blockMapping).dropKey?
    pure ({ lexer with keyAllowed := !lexer.inFlow }.pushMark .key)

/-- The mark of a value. It turns a possible key into one. -/
def valueMark? (lexer : Lexer) : Option Lexer :=
  match lexer.key with
  | some key =>
      let lexer := { lexer with tokens := lexer.tokens.insertIdxIfInBounds key.index .key }
      let lexer := lexer.openBlock key.start.column key.index .blockMapping
      some ({ lexer with key := none, keyAllowed := false }.pushMark .value)
  | none =>
      if !lexer.inFlow && !lexer.keyAllowed then none
      else
        let lexer := lexer.openBlock lexer.position.column lexer.tokens.size .blockMapping
        some ({ lexer with keyAllowed := !lexer.inFlow }.pushMark .value)

/-- The start of a node that is a key if a colon follows. -/
def beginNode? (lexer : Lexer) : Option Lexer := do
  pure { ← lexer.saveKey? with keyAllowed := false }

/-- An anchor, or a reference to one. -/
def anchor? (lexer : Lexer) (token : String → Token) : Option Lexer := do
  let lexer ← lexer.beginNode?
  let (name, rest) ← anchorName? (lexer.rest.drop 1)
  pure ((lexer.goto rest).push (token name))

/-- A tag. -/
def tagged? (lexer : Lexer) : Option Lexer := do
  let lexer ← lexer.beginNode?
  let (token, rest) ← tag? lexer.inFlow lexer.rest
  pure ((lexer.goto rest).push token)

/-- A block scalar. A key may follow it. -/
def blockScalar? (lexer : Lexer) (folded : Bool) : Option Lexer := do
  let lexer := { ← lexer.dropKey? with keyAllowed := true }
  let (text, rest) ← block? folded lexer.blocks.head? (lexer.rest.drop 1)
  pure ((lexer.goto rest).push (.scalar (if folded then .folded else .literal) (String.ofList text)))

/-- A scalar in quotes. -/
def quotedScalar? (lexer : Lexer) (double : Bool) : Option Lexer := do
  let lexer ← lexer.beginNode?
  let (text, rest) ← quoted? double (lexer.rest.drop 1)
  pure ((lexer.goto rest).push (.scalar .quoted (String.ofList text)))

/-- A scalar without quotes. A key may follow it on a new line. -/
def plainScalar? (lexer : Lexer) : Option Lexer := do
  let lexer ← lexer.beginNode?
  let scalar ← plain? lexer.inFlow lexer.margin lexer.position.column lexer.rest
  let lexer := (lexer.goto scalar.rest).push (.scalar .plain (String.ofList scalar.text))
  pure (if scalar.broken then { lexer with keyAllowed := true } else lexer)

/-- Whether a plain scalar begins with a character that is followed by others. Most marks begin none; a
dash, and outside of brackets a question mark or a colon, does if a word goes on behind it. -/
def beginsPlain (flow : Bool) (c : Char) (rest : List Char) : Bool :=
  let marks := ['-', '?', ':', ',', '[', ']', '{', '}', '#', '&', '*', '!', '|', '>', '\'', '"', '%', '@',
    '\x60']
  !(isWhite c || marks.contains c)
    || (c == '-' && !rest.head?.any isSpace)
    || (!flow && (c == '?' || c == ':') && !endsWord rest)

/-- Reads the next token, which begins with a character that is followed by others. -/
def token? (lexer : Lexer) (c : Char) (rest : List Char) : Option Lexer :=
  let lineStart := lexer.position.column == 0
  if lineStart && c == '%' then lexer.directiveLine?
  else if lineStart && isMarkerOf '-' lexer.rest then lexer.marker? .documentStart
  else if lineStart && isMarkerOf '.' lexer.rest then lexer.marker? .documentEnd
  else if c == '[' then lexer.openFlow? .flowSequence
  else if c == '\x7b' then lexer.openFlow? .flowMapping
  else if c == ']' then lexer.closeFlow? .flowSequenceEnd
  else if c == '\x7d' then lexer.closeFlow? .flowMappingEnd
  else if c == ',' then lexer.comma?
  else if c == '-' && endsWord rest then lexer.item?
  else if c == '?' && (lexer.inFlow || endsWord rest) then lexer.keyMark?
  else if c == ':' && (lexer.inFlow || endsWord rest) then lexer.valueMark?
  else if c == '*' then lexer.anchor? .reference
  else if c == '&' then lexer.anchor? .anchor
  else if c == '!' then lexer.tagged?
  else if c == '|' && !lexer.inFlow then lexer.blockScalar? false
  else if c == '>' && !lexer.inFlow then lexer.blockScalar? true
  else if c == '\'' then lexer.quotedScalar? false
  else if c == '"' then lexer.quotedScalar? true
  else if beginsPlain lexer.inFlow c rest then lexer.plainScalar?
  else none

/-- Reads all tokens, within a bound on their number. -/
def run? : Nat → Lexer → Option (Array Token)
  | 0, _ => none
  | fuel + 1, lexer => do
      let lexer ← lexer.skipWhite.dropStaleKeys?
      let lexer := lexer.closeBlocks fun column => decide (lexer.position.column < column)
      match lexer.rest with
      | [] => pure (← lexer.endDocument?).tokens
      | c :: rest => run? fuel (← lexer.token? c rest)

end Lexer

/-- The tokens of a text. -/
def tokens? (text : String) : Option (List Token) :=
  let chars := text.toList
  if chars.all isAllowed then
    (Lexer.run? (chars.length + 1) { rest := unifyBreaks chars }).map Array.toList
  else none

end LoadTest.Yaml
