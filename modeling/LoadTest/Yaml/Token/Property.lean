import LoadTest.Number.Numeral
import LoadTest.Yaml.Scalar.Block
import LoadTest.Yaml.Scalar.Quoted
import LoadTest.Yaml.Token.Basic

/-!
# LoadTest.Yaml.Token.Property

Names, tags and directives: the tokens that say something about a node or a document. **A tag is written
with a handle, an exclamation mark being the shortest, or in angle brackets as a whole.**
-/

namespace LoadTest.Yaml

/-- A name and what follows it. -/
def takeName (chars : List Char) : List Char × List Char :=
  (chars.takeWhile isName, chars.dropWhile isName)

/-- The name of an anchor or of a reference to one, whose mark has been read, and what follows it. -/
def anchorName? (chars : List Char) : Option (String × List Char) :=
  let (name, rest) := takeName chars
  let ended := endsWord rest
    || rest.head?.any fun c => ['?', ':', ',', ']', '}', '%', '@', '\x60'].contains c
  if name.isEmpty || !ended then none else some (String.ofList name, rest)

/-! ### Tags -/

/-- The characters of tags. Some marks of brackets stand only in tags that are written as a whole. -/
def isTagChar (whole : Bool) (c : Char) : Bool :=
  isName c
    || [';', '/', '?', ':', '@', '&', '=', '+', '$', '.', '!', '~', '*', '\'', '(', ')', '%'].contains c
    || (whole && [',', '[', ']'].contains c)

/-- The bytes of a text in which a percent sign begins a byte in two hexadecimal digits. -/
def percentDecoded? : List Char → Option (List UInt8)
  | [] => some []
  | '%' :: a :: b :: rest => do
      let n ← hexadecimals? [a, b]
      pure (UInt8.ofNat n :: (← percentDecoded? rest))
  | c :: rest =>
      if c == '%' then none else do pure ((String.singleton c).toUTF8.toList ++ (← percentDecoded? rest))

/-- The characters of a tag as a text, and what follows them. -/
def tagText? (whole : Bool) (chars : List Char) : Option (String × List Char) := do
  let bytes ← percentDecoded? (chars.takeWhile (isTagChar whole))
  let text ← String.fromUTF8? ⟨bytes.toArray⟩
  pure (text, chars.dropWhile (isTagChar whole))

/-- The handle at the start of a tag and what follows it: a name between exclamation marks, or only the
first mark and the name. -/
def takeHandle? : List Char → Option (List Char × List Char)
  | '!' :: cs =>
      match takeName cs with
      | (name, '!' :: rest) => some ('!' :: name ++ ['!'], rest)
      | (name, rest) => some ('!' :: name, rest)
  | _ => none

/-- The handle of a directive and what follows it. -/
def directiveHandle? (chars : List Char) : Option (String × List Char) := do
  let (handle, rest) ← takeHandle? chars
  if handle = ['!'] ∨ (2 ≤ handle.length ∧ handle.getLast? = some '!') then
    pure (String.ofList handle, rest)
  else none

/-- A tag in its written form, and what follows it. -/
def writtenTag? (chars : List Char) : Option (Token × List Char) :=
  match chars with
  | '!' :: '<' :: cs =>
      match tagText? true cs with
      | some (text, '>' :: rest) => if text.isEmpty then none else some (.tag "" text, rest)
      | _ => none
  | _ => do
      let (handle, rest) ← takeHandle? chars
      if 2 ≤ handle.length ∧ handle.getLast? = some '!' then
        let (ending, rest) ← tagText? false rest
        if ending.isEmpty then none else pure (.tag (String.ofList handle) ending, rest)
      else
        let (ending, rest) ← tagText? false rest
        let ending := String.ofList (handle.drop 1) ++ ending
        pure (if ending.isEmpty then .tag "" "!" else .tag "!" ending, rest)

/-- A tag and what follows it. It ends a word, or stands before a comma in brackets. -/
def tag? (flow : Bool) (chars : List Char) : Option (Token × List Char) := do
  let (tag, rest) ← writtenTag? chars
  if (flow && rest.head? == some ',') || endsWord rest then pure (tag, rest) else none

/-! ### Directives -/

/-- A number of a version, of at most nine digits, and what follows it. -/
def versionNumber? (chars : List Char) : Option (Nat × List Char) :=
  let (digits, rest) := Numeral.takeDigits chars
  if digits.isEmpty ∨ 9 < digits.length then none else some (Numeral.value digits, rest)

/-- What a directive of a name says, and what follows. -/
def directiveBody? (name : List Char) (chars : List Char) : Option (Token × List Char) :=
  if name = "YAML".toList then
    match versionNumber? (chars.dropWhile isSpace) with
    | some (major, '.' :: rest) =>
        (versionNumber? rest).map fun (minor, rest) => (.version major minor, rest)
    | _ => none
  else if name = "TAG".toList then do
    let (handle, rest) ← directiveHandle? (chars.dropWhile isSpace)
    if rest.head?.any isSpace then
      let (expansion, rest) ← tagText? true (rest.dropWhile isSpace)
      if expansion.isEmpty || !endsWord rest then none else pure (.handle handle expansion, rest)
    else none
  else none

/-- The directive whose mark has been read, and the lines that follow it. -/
def directive? (chars : List Char) : Option (Token × List Char) := do
  let (name, rest) := takeName chars
  if name.isEmpty || !endsWord rest then none
  else
    let (token, rest) ← directiveBody? name rest
    pure (token, ← restOfLine? rest)

end LoadTest.Yaml
