import LoadTest.Yaml.Scalar.Basic

/-!
# LoadTest.Yaml.Scalar.Quoted

Scalars in quotes. **In single quotes only the quote itself is special, written twice; in double quotes
a backslash begins an escape,** and one at the end of a line joins the lines. Lines are folded in both.
-/

namespace LoadTest.Yaml

/-- The value of a hexadecimal digit. -/
def hexadecimal? (c : Char) : Option Nat :=
  if '0' ≤ c ∧ c ≤ '9' then some (c.toNat - '0'.toNat)
  else if 'a' ≤ c ∧ c ≤ 'f' then some (c.toNat - 'a'.toNat + 10)
  else if 'A' ≤ c ∧ c ≤ 'F' then some (c.toNat - 'A'.toNat + 10)
  else none

/-- The value of a row of hexadecimal digits. -/
def hexadecimals? (digits : List Char) : Option Nat :=
  digits.foldlM (fun n c => (hexadecimal? c).map (16 * n + ·)) 0

/-- The characters that are escaped by one letter. -/
def letterEscapes : List (Char × Char) :=
  [('0', '\x00'), ('a', '\x07'), ('b', '\x08'), ('t', '\t'), ('\t', '\t'), ('n', '\n'), ('v', '\x0b'),
    ('f', '\x0c'), ('r', '\r'), ('e', '\x1b'), (' ', ' '), ('"', '"'), ('/', '/'), ('\\', '\\'),
    ('N', '\u0085'), ('_', '\u00a0'), ('L', '\u2028'), ('P', '\u2029')]

/-- How many digits follow a letter that begins a numeric escape. -/
def escapeDigits? : Char → Option Nat
  | 'x' => some 2
  | 'u' => some 4
  | 'U' => some 8
  | _ => none

/-- The character of an escape and what follows. `letter` is the character behind the backslash. -/
def escaped? (letter : Char) (rest : List Char) : Option (Char × List Char) :=
  match letterEscapes.lookup letter with
  | some c => some (c, rest)
  | none => do
      let count ← escapeDigits? letter
      if rest.length < count then none
      else
        let code ← hexadecimals? (rest.take count)
        if code.isValidChar then some (Char.ofNat code, rest.drop count) else none

theorem length_le_of_escaped? {letter c : Char} {cs rest : List Char}
    (h : escaped? letter cs = some (c, rest)) : rest.length ≤ cs.length := by
  unfold escaped? at h
  split at h
  · simp_all
  · simp only [bind, Option.bind_eq_some_iff] at h
    obtain ⟨count, _, h⟩ := h
    split at h
    · simp at h
    · obtain ⟨code, _, h⟩ := Option.bind_eq_some_iff.1 h
      split at h
      · simp only [Option.some.injEq, Prod.mk.injEq] at h
        rw [← h.2, List.length_drop]
        omega
      · simp at h

/-- The text up to the closing quote, and what follows that. `lineStart` says whether a line begins
here; a marker there is an error. -/
def quotedFrom? (double lineStart : Bool) (chars : List Char) : Option (List Char × List Char) :=
  match chars with
  | [] => none
  | c :: cs =>
      if lineStart && isMarker chars then none
      else if isWhite c then
        let gap := c :: cs.takeWhile isWhite
        (quotedFrom? double (gap.getLast?.any isBreak) (cs.dropWhile isWhite)).map fun (text, rest) =>
          (gapText gap ++ text, rest)
      else if double && c == '\\' then
        match cs with
        | [] => none
        | letter :: cs =>
            if isBreak letter then
              let gap := cs.takeWhile isWhite
              (quotedFrom? double ((letter :: gap).getLast?.any isBreak) (cs.dropWhile isWhite)).map
                fun (text, rest) => (gap.filter isBreak ++ text, rest)
            else
              match _h : escaped? letter cs with
              | none => none
              | some (x, cs) =>
                  (quotedFrom? double false cs).map fun (text, rest) => (x :: text, rest)
      else if c == (if double then '"' else '\'') then
        match double, cs with
        | false, '\'' :: cs => (quotedFrom? double false cs).map fun (text, rest) => ('\'' :: text, rest)
        | _, _ => some ([], cs)
      else (quotedFrom? double false cs).map fun (text, rest) => (c :: text, rest)
termination_by chars.length
decreasing_by
  · simpa using Nat.lt_succ_of_le (length_dropWhile_le isWhite cs)
  · have := length_dropWhile_le isWhite cs
    simp
    omega
  · have := length_le_of_escaped? _h
    simp
    omega
  · simp only [List.length_cons]
    omega
  · simp

/-- The scalar whose opening quote has been read, and what follows it. -/
def quoted? (double : Bool) (chars : List Char) : Option (List Char × List Char) :=
  quotedFrom? double false chars

end LoadTest.Yaml
