import LoadTest.Text.Printable

/-!
# LoadTest.Text.Quoted

A text in double quotes, as shown to developers. **Whatever could be mistaken is escaped:** quotes,
backslashes, and characters that cannot be shown, which are written by their code point.
-/

namespace LoadTest.Text

/-- The escapes with a letter of their own. -/
def letterEscapes : List (Char × Char) :=
  [('\x00', '0'), ('\t', 't'), ('\r', 'r'), ('\n', 'n'), ('\\', '\\'), ('"', '"')]

/-- A character between quotes. -/
def escape (c : Char) : List Char :=
  match letterEscapes.lookup c with
  | some letter => ['\\', letter]
  | none => if isPrintable c then [c] else "\\u\x7b".toList ++ Nat.toDigits 16 c.toNat ++ ['\x7d']

/-- A text in double quotes. -/
def quoted (s : String) : String := "\"" ++ String.ofList (s.toList.flatMap escape) ++ "\""

end LoadTest.Text
