/-!
# LoadTest.Yaml.Character

The characters that YAML gives a meaning. **All breaks are made newlines first,** but for the two
separators of Unicode, which stay what they are; so every break is one character and ends one line.
-/

namespace LoadTest.Yaml

/-- A space or a tab. -/
def isSpace (c : Char) : Bool := c == ' ' || c == '\t'

/-- A character that ends a line: a newline, or the line or paragraph separator. -/
def isBreak (c : Char) : Bool := c == '\n' || c == '\u2028' || c == '\u2029'

/-- White space, inside a line or between lines. -/
def isWhite (c : Char) : Bool := isSpace c || isBreak c

/-- Whether a word that is followed by these characters ends there. -/
def endsWord : List Char → Bool
  | [] => true
  | c :: _ => isWhite c

/-- Whether a line that goes on with these characters ends there. -/
def endsLine : List Char → Bool
  | [] => true
  | c :: _ => isBreak c

/-- The characters of the names of anchors, handles and directives. -/
def isName (c : Char) : Bool := c.isAlphanum || c == '_' || c == '-'

/-- The characters that shape collections in brackets. -/
def isFlowMark (c : Char) : Bool := [',', '[', ']', '{', '}'].contains c

/-- Whether a line begins with three of a mark that stand alone. -/
def isMarkerOf (mark : Char) : List Char → Bool
  | a :: b :: c :: rest => a == mark && b == mark && c == mark && endsWord rest
  | _ => false

/-- Whether a line begins with the marker of the start or the end of a document. -/
def isMarker (line : List Char) : Bool := isMarkerOf '-' line || isMarkerOf '.' line

/-- The characters that may stand in a text: no control characters but tab and breaks, and no
noncharacters at the end of the first plane. -/
def isAllowed (c : Char) : Bool :=
  let n := c.toNat
  n == 0x09 || n == 0x0A || n == 0x0D || (decide (0x20 ≤ n) && decide (n ≤ 0x7E)) || n == 0x85
    || (decide (0xA0 ≤ n) && decide (n ≤ 0xFFFD)) || decide (0x10000 ≤ n)

/-- The text with a newline for each carriage return, newline, pair of both, and next-line character. -/
def unifyBreaks : List Char → List Char
  | [] => []
  | '\r' :: '\n' :: cs => '\n' :: unifyBreaks cs
  | c :: cs => (if c == '\r' || c == '\u0085' then '\n' else c) :: unifyBreaks cs

end LoadTest.Yaml
