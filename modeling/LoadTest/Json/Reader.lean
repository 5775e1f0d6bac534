import LoadTest.Json.Token

/-!
# LoadTest.Json.Reader

From tokens to values. The reader keeps the brackets still open on a stack of frames, so that text of
any depth is read in one pass over its tokens. **`Json.ofBytes?` accepts exactly one value with blanks
around it;** limits on depth are up to whoever uses the value (`Json.fitsDepth`).
-/

namespace LoadTest.Json

/-- A bracket that is still open, with what it holds so far, the last one first. -/
inductive Frame where
  | array (items : List Json)
  /-- An object whose next member has the given key. -/
  | object (members : List (Option String × Json)) (key : Option String)

/-- What may come next. -/
inductive Expecting where
  /-- A value. -/
  | value
  /-- A value, or the end of the array just opened. -/
  | firstItem
  /-- A key, or the end of the object just opened. -/
  | firstKey
  /-- A key. -/
  | key
  /-- The colon after a key. -/
  | colon (key : Option String)
  /-- A comma or a closing bracket, or the end of the text if no bracket is open. -/
  | rest (last : Json)

/-- The reader between two tokens. An object whose key has not been read keeps its members in
`members`. -/
structure ReaderState where
  frames : List Frame
  members : List (Option String × Json)
  expecting : Expecting

namespace ReaderState

/-- Before the first token. -/
def start : ReaderState := ⟨[], [], .value⟩

/-- After a complete value. -/
def after (frames : List Frame) (value : Json) : ReaderState := ⟨frames, [], .rest value⟩

/-- The value that a single token is. -/
def leaf? : Token → Option Json
  | .null => some .null
  | .bool b => some (.bool b)
  | .number n => some (.number n)
  | .string s => some (.string s)
  | _ => none

/-- Takes the first token of a value. -/
def beginValue? (frames : List Frame) : Token → Option ReaderState
  | .openArray => some ⟨.array [] :: frames, [], .firstItem⟩
  | .openObject => some ⟨frames, [], .firstKey⟩
  | token => (leaf? token).map (after frames)

/-- Takes one token. -/
def step? (state : ReaderState) (token : Token) : Option ReaderState :=
  match state.expecting, token with
  | .value, token => beginValue? state.frames token
  | .firstItem, .closeArray =>
      match state.frames with
      | .array items :: frames => some (after frames (.array items.reverse))
      | _ => none
  | .firstItem, token => beginValue? state.frames token
  | .firstKey, .closeObject => some (after state.frames (.object state.members.reverse))
  | .firstKey, .string key => some { state with expecting := .colon key }
  | .key, .string key => some { state with expecting := .colon key }
  | .colon key, .colon => some ⟨.object state.members key :: state.frames, [], .value⟩
  | .rest last, token =>
      match state.frames, token with
      | .array items :: frames, .comma => some ⟨.array (last :: items) :: frames, [], .value⟩
      | .array items :: frames, .closeArray => some (after frames (.array (last :: items).reverse))
      | .object members key :: frames, .comma => some ⟨frames, (key, last) :: members, .key⟩
      | .object members key :: frames, .closeObject =>
          some (after frames (.object ((key, last) :: members).reverse))
      | _, _ => none
  | _, _ => none

/-- Takes tokens one after the other. -/
def steps? (state : ReaderState) : List Token → Option ReaderState
  | [] => some state
  | token :: tokens =>
      match state.step? token with
      | some next => steps? next tokens
      | none => none

/-- The value read, once no bracket is open. -/
def result? : ReaderState → Option Json
  | ⟨[], _, .rest value⟩ => some value
  | _ => none

end ReaderState

/-- The value that tokens spell out. -/
def ofTokens? (tokens : List Token) : Option Json := do
  (← ReaderState.start.steps? tokens).result?

/-- The value that a text spells out. -/
def ofBytes? (bytes : List UInt8) : Option Json := do ofTokens? (← Token.scan? bytes)

/-- The value that a text spells out. -/
def ofText? (s : String) : Option Json := ofBytes? s.toUTF8.toList

end LoadTest.Json
