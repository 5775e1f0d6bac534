/-!
# LoadTest.Text.Blank

Blank characters and what is cut at them: trimming a text on both sides, and splitting it into
words. **Blank is the Unicode property White_Space**, so the no-break space and the ideographic
space count.
-/

namespace LoadTest.Text

/-- The code points with the property White_Space. -/
def blankCodes : List Nat :=
  [0x09, 0x0A, 0x0B, 0x0C, 0x0D, 0x20, 0x85, 0xA0, 0x1680, 0x2000, 0x2001, 0x2002, 0x2003, 0x2004,
    0x2005, 0x2006, 0x2007, 0x2008, 0x2009, 0x200A, 0x2028, 0x2029, 0x202F, 0x205F, 0x3000]

/-- Whether a character is blank. -/
def isBlank (c : Char) : Bool := blankCodes.contains c.toNat

/-- The characters without those at the end for which `p` holds. -/
def dropEndWhile (p : Char → Bool) (cs : List Char) : List Char :=
  (cs.reverse.dropWhile p).reverse

/-- The characters between the first and the last that is not blank. -/
def trimList (cs : List Char) : List Char := dropEndWhile isBlank (cs.dropWhile isBlank)

/-- The text between the first and the last character that is not blank. -/
def trim (s : String) : String := String.ofList (trimList s.toList)

/-- Whether nothing but blanks occur. -/
def isAllBlank (s : String) : Bool := s.toList.all isBlank

/-- The words of a text: its longest runs of characters that are not blank. `word` is the run read
so far, last character first. -/
def wordsFrom (word : List Char) : List Char → List (List Char)
  | [] => if word.isEmpty then [] else [word.reverse]
  | c :: cs =>
      if isBlank c then
        (if word.isEmpty then wordsFrom [] cs else word.reverse :: wordsFrom [] cs)
      else wordsFrom (c :: word) cs

/-- The words of a text, in order. -/
def words (s : String) : List String := (wordsFrom [] s.toList).map String.ofList

/-- The rest of a list that ends in `tail`, if it does. -/
def dropTail? (tail cs : List Char) : Option (List Char) :=
  if tail.isSuffixOf cs then some (cs.take (cs.length - tail.length)) else none

/-- The rest of a list that begins with `head`, if it does. -/
def dropHead? (head cs : List Char) : Option (List Char) :=
  if head.isPrefixOf cs then some (cs.drop head.length) else none

end LoadTest.Text
