import LoadTest.Yaml.Scalar.Basic

/-!
# LoadTest.Yaml.Scalar.Plain

Scalars without quotes. **A plain scalar is a row of words;** it goes on over lines that are indented
enough and ends before a comment, a colon that ends a word, a marker, or a mark of the brackets it
stands in.
-/

namespace LoadTest.Yaml

/-- A plain scalar and what follows it and the white space behind it. -/
structure Plain where
  text : List Char
  rest : List Char
  /-- Whether the white space behind the text holds a line break. -/
  broken : Bool

/-- A word and what follows it. In brackets a colon right before one of their marks is an error. -/
def plainWord? (flow : Bool) : List Char → Option (List Char × List Char)
  | [] => some ([], [])
  | c :: rest =>
      if isWhite c then some ([], c :: rest)
      else if flow && c == ':' && (rest.head?.any fun next => next == '?' || isFlowMark next) then none
      else if (c == ':' && endsWord rest) || (flow && isFlowMark c) then some ([], c :: rest)
      else (plainWord? flow rest).map fun (word, rest) => (c :: word, rest)

/-- A word and its rest are the whole. -/
theorem append_of_plainWord? {flow : Bool} {cs word rest : List Char}
    (h : plainWord? flow cs = some (word, rest)) : word ++ rest = cs := by
  induction cs generalizing word with
  | nil => simp_all [plainWord?]
  | cons c cs ih =>
      unfold plainWord? at h
      split at h
      · simp_all
      · split at h
        · simp at h
        · split at h
          · simp_all
          · obtain ⟨⟨w, r⟩, hw, he⟩ := Option.map_eq_some_iff.1 h
            simp only [Prod.mk.injEq] at he
            obtain ⟨rfl, rfl⟩ := he
            simp [ih hw]

/-- Whether, on a line that begins inside the white space, a tab stands before the margin. -/
def hasStrayTab (margin : Nat) (broken : Bool) (column : Nat) : List Char → Bool
  | [] => false
  | c :: cs =>
      if isBreak c then hasStrayTab margin true 0 cs
      else (broken && c == '\t' && decide (column < margin)) || hasStrayTab margin broken (column + 1) cs

/-- The plain scalar that goes on, behind the white space `gap`, at a column. -/
def plainFrom? (flow : Bool) (margin column : Nat) (gap chars : List Char) : Option Plain :=
  let stop : Plain := ⟨[], chars, gap.any isBreak⟩
  if chars.head? == some '#' || (column == 0 && isMarker chars) then some stop
  else
    match _h : plainWord? flow chars with
    | none => none
    | some ([], _) => some stop
    | some (c :: cs, rest) =>
        let text := gapText gap ++ c :: cs
        let next := rest.takeWhile isWhite
        let column := columnAfter (column + cs.length + 1) next
        if next.isEmpty then some ⟨text, rest, false⟩
        else if hasStrayTab margin false column next then none
        else if !flow && decide (column < margin) then
          some ⟨text, rest.dropWhile isWhite, next.any isBreak⟩
        else
          (plainFrom? flow margin column next (rest.dropWhile isWhite)).map fun more =>
            { more with text := text ++ more.text }
termination_by chars.length
decreasing_by
  have h := congrArg List.length (append_of_plainWord? _h)
  have := length_dropWhile_le isWhite rest
  simp at h
  omega

/-- The plain scalar at a column, in brackets or not, whose further lines begin at the margin. -/
def plain? (flow : Bool) (margin column : Nat) (chars : List Char) : Option Plain :=
  plainFrom? flow margin column [] chars

end LoadTest.Yaml
