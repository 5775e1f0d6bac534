import LoadTest.Number.Numeral
import LoadTest.Yaml.Scalar.Basic

/-!
# LoadTest.Yaml.Scalar.Block

Scalars of indented lines. **The first line that is not empty sets the indentation** unless a number
does, and no empty line before it may be deeper. A literal scalar keeps its breaks; in a folded one those
between two lines that both begin with text are folded. The breaks at its end are kept all, one or none.
-/

namespace LoadTest.Yaml

/-- What becomes of the breaks at the end. -/
inductive Chomping where
  | strip
  | clip
  | keep
  deriving DecidableEq

/-- The chomping that a sign asks for. -/
def Chomping.ofSign? : Char → Option Chomping
  | '+' => some .keep
  | '-' => some .strip
  | _ => none

/-- The indentation that a digit asks for. -/
def indentation? (c : Char) : Option Nat :=
  if Numeral.isDigit c ∧ c ≠ '0' then some (Numeral.digitValue c) else none

/-- The characters behind the mark of a block scalar: chomping and indentation in either order, and what
follows them. A zero is no indentation. -/
def blockMarks? (chars : List Char) : Option (Chomping × Option Nat × List Char) :=
  match chars with
  | [] => some (.clip, none, [])
  | c :: cs =>
      match Chomping.ofSign? c with
      | some chomping =>
          match cs with
          | d :: ds =>
              if Numeral.isDigit d then (indentation? d).map fun n => (chomping, some n, ds)
              else some (chomping, none, cs)
          | [] => some (chomping, none, [])
      | none =>
          if Numeral.isDigit c then
            (indentation? c).map fun n =>
              match cs with
              | d :: ds =>
                  match Chomping.ofSign? d with
                  | some chomping => (chomping, some n, ds)
                  | none => (.clip, some n, cs)
              | [] => (.clip, some n, [])
          else some (.clip, none, chars)

/-- What follows the rest of a line that holds nothing but a comment, without its break. -/
def restOfLine? (chars : List Char) : Option (List Char) :=
  let chars := chars.dropWhile isSpace
  let chars := if chars.head? == some '#' then chars.dropWhile fun c => !isBreak c else chars
  if endsLine chars then some (chars.drop 1) else none

/-- The empty lines before a line, and where that line begins. -/
structure Opening where
  /-- The breaks of the empty lines. -/
  breaks : List Char
  /-- The deepest column that a line among them begins at. -/
  deepest : Nat
  /-- The column where the next line begins. -/
  column : Nat
  rest : List Char

/-- The empty lines at the start of a line. With an indentation only that many spaces are skipped. A tab
where a space of the indentation should be is an error. -/
def opening? (indent : Option Nat) (chars : List Char) : Option Opening :=
  let spaces := ((indent.elim chars fun n => chars.take n).takeWhile (· == ' ')).length
  match _h : chars.drop spaces with
  | [] => some ⟨[], spaces, spaces, []⟩
  | c :: rest =>
      if c == '\t' && indent.all fun n => decide (spaces < n) then none
      else if isBreak c then
        (opening? indent rest).map fun next =>
          ⟨c :: next.breaks, max spaces next.deepest, next.column, next.rest⟩
      else some ⟨[], spaces, spaces, c :: rest⟩
termination_by chars.length
decreasing_by
  have h := congrArg List.length _h
  simp at h
  omega

theorem length_rest_opening? {indent : Option Nat} {chars : List Char} {next : Opening}
    (h : opening? indent chars = some next) : next.rest.length ≤ chars.length := by
  induction hn : chars.length using Nat.strongRecOn generalizing chars next with
  | ind n ih =>
    subst hn
    unfold opening? at h
    simp only at h
    split at h
    · cases h; simp
    · rename_i c rest hd
      have hlen := congrArg List.length hd
      simp only [List.length_drop, List.length_cons] at hlen
      split at h
      · simp at h
      · split at h
        · obtain ⟨m, hm, rfl⟩ := Option.map_eq_some_iff.1 h
          have := ih rest.length (by omega) hm rfl
          simp only
          omega
        · cases h
          simp
          omega

/-- A line of a block scalar. -/
structure BlockLine where
  /-- Its text without the indentation. -/
  text : List Char
  /-- Its break; nothing at the end of the input. -/
  ending : List Char
  /-- The breaks of the empty lines behind it. -/
  breaks : List Char

/-- Whether the text begins with white space. -/
def BlockLine.isIndented (line : BlockLine) : Bool := line.text.head?.any isSpace

/-- The lines that begin at the indentation, and what follows them. -/
def blockLines? (indent column : Nat) (chars : List Char) : Option (List BlockLine × List Char) :=
  if column ≠ indent ∨ chars = [] then some ([], chars)
  else
    let text := chars.takeWhile fun c => !isBreak c
    match _h : chars.dropWhile fun c => !isBreak c with
    | [] => some ([⟨text, [], []⟩], [])
    | c :: rest =>
        match _hn : opening? (some indent) rest with
        | none => none
        | some next =>
            (blockLines? indent next.column next.rest).map fun (lines, rest) =>
              (⟨text, [c], next.breaks⟩ :: lines, rest)
termination_by chars.length
decreasing_by
  have h := congrArg List.length _h
  have := length_dropWhile_le (fun c => !isBreak c) chars
  have := length_rest_opening? _hn
  simp at h
  omega

/-- The text between two lines. -/
def BlockLine.between (folded : Bool) (line next : BlockLine) : List Char :=
  if folded && line.ending == ['\n'] && !line.isIndented && !next.isIndented then
    (if line.breaks.isEmpty then [' '] else line.breaks)
  else line.ending ++ line.breaks

/-- The text behind the last line. -/
def BlockLine.tail (chomping : Chomping) (line : BlockLine) : List Char :=
  match chomping with
  | .strip => []
  | .clip => line.ending
  | .keep => line.ending ++ line.breaks

/-- The text of some lines. -/
def linesText (folded : Bool) (chomping : Chomping) : List BlockLine → List Char
  | [] => []
  | [line] => line.text ++ line.tail chomping
  | line :: next :: lines =>
      line.text ++ line.between folded next ++ linesText folded chomping (next :: lines)

/-- The block scalar whose mark has been read, and what follows it. `outer` is the column of the
collection around it, if it stands in one. -/
def block? (folded : Bool) (outer : Option Nat) (chars : List Char) : Option (List Char × List Char) := do
  let (chomping, increment, rest) ← blockMarks? chars
  let rest ← restOfLine? rest
  let first ← opening? (increment.map (outer.getD 0 + ·)) rest
  let least := max 1 (outer.elim 0 (· + 1))
  let indent := (increment.map (outer.getD 0 + ·)).getD (max first.deepest least)
  let (lines, rest) ← blockLines? indent first.column first.rest
  if lines.isEmpty then pure (if chomping = .keep then first.breaks else [], rest)
  else pure (first.breaks ++ linesText folded chomping lines, rest)

end LoadTest.Yaml
