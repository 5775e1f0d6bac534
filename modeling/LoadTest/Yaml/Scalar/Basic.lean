import LoadTest.Yaml.Character

/-!
# LoadTest.Yaml.Scalar.Basic

Scalars and the folding of lines. **A single line break inside a folded scalar reads as a space, and of
several the first is dropped;** the white space around the breaks goes. Separators of Unicode are kept.
-/

namespace LoadTest.Yaml

/-- How a scalar is written. -/
inductive Style where
  /-- Without quotes. -/
  | plain
  /-- In quotes of either kind. -/
  | quoted
  /-- As indented lines that are kept. -/
  | literal
  /-- As indented lines that are folded. -/
  | folded
  deriving DecidableEq

/-- The text for the line breaks between two words. -/
def foldBreaks : List Char → List Char
  | ['\n'] => [' ']
  | '\n' :: more => more
  | breaks => breaks

/-- The text for the white space between two words. -/
def gapText (gap : List Char) : List Char :=
  if gap.any isBreak then foldBreaks (gap.filter isBreak) else gap

/-- The column behind some characters that begin at a column. -/
def columnAfter (column : Nat) (chars : List Char) : Nat :=
  chars.foldl (fun column c => if isBreak c then 0 else column + 1) column

theorem length_dropWhile_le (p : Char → Bool) (cs : List Char) : (cs.dropWhile p).length ≤ cs.length :=
  (List.dropWhile_suffix p).length_le

end LoadTest.Yaml
