import LoadTest.Json.Value

/-!
# LoadTest.Json.Token

JSON text as tokens. Texts are read byte by byte, because a body that came over the wire need not be
valid text: only what stands between two quotes is ever decoded, and **a quoted text decodes to `none`
when its bytes or its surrogate escapes are no text.**
-/

namespace LoadTest.Json

/-- The tokens of JSON. -/
inductive Token where
  | openArray
  | closeArray
  | openObject
  | closeObject
  | comma
  | colon
  | null
  | bool (value : Bool)
  | number (numeral : Numeral)
  | string (text : Option String)
  deriving DecidableEq

namespace Token

/-- A byte that separates tokens: space, tab, line feed or carriage return. -/
def isSpace (b : UInt8) : Bool := b == 0x20 || b == 0x09 || b == 0x0A || b == 0x0D

/-! ### Quoted texts -/

/-- A part of a quoted text: a byte as it is, or a 16-bit unit written as an escape. -/
inductive Piece where
  | byte (b : UInt8)
  | unit (u : Nat)
  deriving DecidableEq

/-- The value of a hexadecimal digit. -/
def hexDigit? (b : UInt8) : Option Nat :=
  if 0x30 ≤ b ∧ b ≤ 0x39 then some (b.toNat - 0x30)
  else if 0x61 ≤ b ∧ b ≤ 0x66 then some (b.toNat - 0x61 + 10)
  else if 0x41 ≤ b ∧ b ≤ 0x46 then some (b.toNat - 0x41 + 10)
  else none

/-- The unit that four hexadecimal digits denote. -/
def hexUnit? (a b c d : UInt8) : Option Nat := do
  pure ((((← hexDigit? a) * 16 + (← hexDigit? b)) * 16 + (← hexDigit? c)) * 16 + (← hexDigit? d))

/-- The byte that a backslash and a letter stand for. -/
def shortEscape? (b : UInt8) : Option UInt8 :=
  if b == 0x22 || b == 0x5C || b == 0x2F then some b
  else if b == 0x62 then some 0x08
  else if b == 0x66 then some 0x0C
  else if b == 0x6E then some 0x0A
  else if b == 0x72 then some 0x0D
  else if b == 0x74 then some 0x09
  else none

/-- The pieces up to the closing quote and the bytes after it. `seen` holds the pieces read so far,
the last one first. -/
def quoted? (seen : List Piece) : List UInt8 → Option (List Piece × List UInt8)
  | [] => none
  | 0x22 :: rest => some (seen.reverse, rest)
  | 0x5C :: 0x75 :: a :: b :: c :: d :: rest =>
      match hexUnit? a b c d with
      | some u => quoted? (.unit u :: seen) rest
      | none => none
  | 0x5C :: e :: rest =>
      match shortEscape? e with
      | some b => quoted? (.byte b :: seen) rest
      | none => none
  | b :: rest => if b < 0x20 || b == 0x5C then none else quoted? (.byte b :: seen) rest

/-- The bytes that a quoted text stands for; none if a surrogate unit stands alone. -/
def pieceBytes? : List Piece → Option (List UInt8)
  | [] => some []
  | .byte b :: rest => (pieceBytes? rest).map (b :: ·)
  | .unit u :: rest =>
      if 0xD800 ≤ u ∧ u < 0xDC00 then
        match rest with
        | .unit v :: rest =>
            if 0xDC00 ≤ v ∧ v < 0xE000 then
              let c := Char.ofNat (0x10000 + (u - 0xD800) * 0x400 + (v - 0xDC00))
              (pieceBytes? rest).map ((String.singleton c).toUTF8.toList ++ ·)
            else none
        | _ => none
      else if 0xDC00 ≤ u ∧ u < 0xE000 then none
      else (pieceBytes? rest).map ((String.singleton (Char.ofNat u)).toUTF8.toList ++ ·)

/-- The text that a quoted text stands for. -/
def textOf? (pieces : List Piece) : Option String := do
  String.fromUTF8? ⟨(← pieceBytes? pieces).toArray⟩

/-! ### Numbers -/

/-- A decimal digit. -/
def isDigitByte (b : UInt8) : Bool := decide (0x30 ≤ b) && decide (b ≤ 0x39)

/-- The digits at the front, as numbers, and what follows them. -/
def digits (bytes : List UInt8) : List Nat × List UInt8 :=
  ((bytes.takeWhile isDigitByte).map fun b => b.toNat - 0x30, bytes.dropWhile isDigitByte)

/-- The number that digits denote in base ten. -/
def digitsValue (ds : List Nat) : Nat := ds.foldl (fun n d => 10 * n + d) 0

/-- A point and the digits after it, of which there is one at least; nothing if there is no point. -/
def fraction? : List UInt8 → Option (List Nat × List UInt8)
  | 0x2E :: rest =>
      let (ds, rest) := digits rest
      if ds.isEmpty then none else some (ds, rest)
  | rest => some ([], rest)

/-- An exponent with its mark; nothing if there is no mark. -/
def exponent? : List UInt8 → Option (Option Int × List UInt8)
  | [] => some (none, [])
  | mark :: rest =>
      if mark == 0x65 || mark == 0x45 then
        let (negative, rest) :=
          match rest with
          | 0x2D :: rest => (true, rest)
          | 0x2B :: rest => (false, rest)
          | rest => (false, rest)
        let (ds, rest) := digits rest
        if ds.isEmpty then none
        else some (some (if negative then -(digitsValue ds : Int) else (digitsValue ds : Int)), rest)
      else some (none, mark :: rest)

/-- A numeral without its sign. Only zero itself begins with a zero. -/
def numeral? (negative : Bool) (bytes : List UInt8) : Option (Numeral × List UInt8) := do
  let (whole, rest) := digits bytes
  if whole.isEmpty ∨ (whole.head? = some 0 ∧ whole.length ≠ 1) then none
  else
    let (fraction, rest) ← fraction? rest
    let (exponent, rest) ← exponent? rest
    pure (⟨negative, whole, fraction, exponent⟩, rest)

/-! ### Tokens -/

/-- The first token of a text that starts with one, and the bytes after it. -/
def first? : List UInt8 → Option (Token × List UInt8)
  | [] => none
  | 0x5B :: rest => some (.openArray, rest)
  | 0x5D :: rest => some (.closeArray, rest)
  | 0x7B :: rest => some (.openObject, rest)
  | 0x7D :: rest => some (.closeObject, rest)
  | 0x2C :: rest => some (.comma, rest)
  | 0x3A :: rest => some (.colon, rest)
  | 0x6E :: 0x75 :: 0x6C :: 0x6C :: rest => some (.null, rest)
  | 0x74 :: 0x72 :: 0x75 :: 0x65 :: rest => some (.bool true, rest)
  | 0x66 :: 0x61 :: 0x6C :: 0x73 :: 0x65 :: rest => some (.bool false, rest)
  | 0x22 :: rest => (quoted? [] rest).map fun (pieces, rest) => (.string (textOf? pieces), rest)
  | 0x2D :: rest => (numeral? true rest).map fun (numeral, rest) => (.number numeral, rest)
  | bytes => (numeral? false bytes).map fun (numeral, rest) => (.number numeral, rest)

/-- The tokens of a text of at most `fuel` bytes, after those seen so far, the last one first. -/
def scanFrom (fuel : Nat) (seen : List Token) (bytes : List UInt8) : Option (List Token) :=
  match fuel, bytes with
  | _, [] => some seen.reverse
  | 0, _ => none
  | fuel + 1, b :: rest =>
      if isSpace b then scanFrom fuel seen rest
      else
        match first? (b :: rest) with
        | some (token, rest) => scanFrom fuel (token :: seen) rest
        | none => none

/-- The tokens of a text. Each takes a byte at least, so the length bounds their number. -/
def scan? (bytes : List UInt8) : Option (List Token) := scanFrom bytes.length [] bytes

end Token

end LoadTest.Json
