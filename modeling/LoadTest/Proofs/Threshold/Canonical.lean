import LoadTest.Proofs.Fallible
import LoadTest.Proofs.Number.Finite
import LoadTest.Proofs.Number.Numeral
import LoadTest.Proofs.Text.Blank
import LoadTest.Threshold.Expression

/-!
# LoadTest.Proofs.Threshold.Canonical

The texts of a criterion. **A text denotes a criterion exactly if it spells it** (`ofText?_eq_ok_iff_spells`):
aggregate, sign and bound in this order, with blanks around aggregate and bound, a percentile with or without
parentheses, equality by one sign or two, and any numeral. The canonical text is one of these spellings, so
each spelling has it as its canonical form and it is its own (`canonical_form`).
-/

namespace LoadTest.Threshold

open Text

/-! ### Spellings of aggregates -/

/-- The texts of an aggregate, without blanks around them. -/
inductive Aggregate.Spells : Aggregate → List Char → Prop where
  | word {aggregate : Aggregate} (mem : aggregate ∈ named) : Spells aggregate aggregate.text.toList
  | parens {before numeral after : List Char} {p : Binary64} (hbefore : Blanks before) (hafter : Blanks after)
      (denotes : Binary64.ofList? numeral = some p) (hrange : 0 ≤ p ∧ p ≤ 100) :
      Spells (.percentile p) (['p', '('] ++ (before ++ numeral ++ after) ++ [')'])
  | bare {before numeral : List Char} {p : Binary64} (hbefore : Blanks before)
      (denotes : Binary64.ofList? numeral = some p) (hrange : 0 ≤ p ∧ p ≤ 100) :
      Spells (.percentile p) ('p' :: (before ++ numeral))

/-- What neither numerals nor aggregates contain. -/
theorem not_mark_of_mem_alphabet {c : Char} (h : c ∈ Numeral.alphabet) :
    isBlank c = false ∧ Comparison.isSign c = false ∧ c ≠ '(' ∧ c ≠ ')' := by
  have hall : ∀ c ∈ Numeral.alphabet,
      isBlank c = false ∧ Comparison.isSign c = false ∧ c ≠ '(' ∧ c ≠ ')' := by decide
  exact hall c h

namespace Aggregate

/-! ### Reading aggregates -/

/-- No word begins like a percentile. -/
theorem find?_named_percentile (rest : List Char) :
    (named.find? fun aggregate => aggregate.text == String.ofList ('p' :: rest)) = none := by
  have hhead : ∀ aggregate ∈ named, aggregate.text.toList.head? ≠ some 'p' := by decide
  refine List.find?_eq_none.mpr ?_
  intro aggregate mem heq
  have htext : aggregate.text = String.ofList ('p' :: rest) := by simpa using heq
  refine hhead aggregate mem ?_
  rw [htext, String.toList_ofList]
  rfl

/-- The text of the percentage is what stands in parentheses, or else behind the letter. -/
theorem percentText?_eq_some {cs digits : List Char} (h : percentText? cs = some digits) :
    cs = ['p', '('] ++ digits ++ [')'] ∨ cs = 'p' :: digits := by
  rcases Option.or_eq_some_iff.mp h with hparens | ⟨-, hbare⟩
  · obtain ⟨rest, hhead, htail⟩ := Option.bind_eq_some_iff.mp hparens
    rw [dropHead?_eq_some_iff.mp hhead, dropTail?_eq_some_iff.mp htail, List.append_assoc]
    exact .inl rfl
  · exact .inr (dropHead?_eq_some_iff.mp hbare)

theorem percentText?_parens (digits : List Char) :
    percentText? (['p', '('] ++ digits ++ [')']) = some digits := by
  have hhead : dropHead? ['p', '('] (['p', '('] ++ digits ++ [')']) = some (digits ++ [')']) :=
    dropHead?_eq_some_iff.mpr (List.append_assoc ..)
  have htail : dropTail? [')'] (digits ++ [')']) = some digits := dropTail?_eq_some_iff.mpr rfl
  rw [percentText?, hhead, Option.bind_some, htail]
  rfl

theorem percentText?_bare {digits : List Char} (h : ∀ c ∈ digits.head?, c ≠ '(') :
    percentText? ('p' :: digits) = some digits := by
  have hparens : dropHead? ['p', '('] ('p' :: digits) = none := by
    refine Option.eq_none_iff_forall_ne_some.mpr ?_
    intro rest hrest
    have heq : digits = '(' :: rest := (List.cons.inj (dropHead?_eq_some_iff.mp hrest)).2
    exact h '(' (by rw [heq]; rfl) rfl
  have hbare : dropHead? ['p'] ('p' :: digits) = some digits := dropHead?_eq_some_iff.mpr rfl
  rw [percentText?, hparens, Option.bind_none, hbare]
  rfl

/-- The reading of a text that has no blanks around it. -/
theorem ofText?_percentile {cs digits numeral : List Char} {p : Binary64}
    (hcs : trimList cs = 'p' :: digits) (hpercent : percentText? ('p' :: digits) = some numeral)
    (denotes : Binary64.ofList? (trimList numeral) = some p) (hrange : 0 ≤ p ∧ p ≤ 100) :
    ofText? cs = .ok (.percentile p) := by
  rw [ofText?, hcs]
  simp only [find?_named_percentile, hpercent, denotes, if_pos hrange]

theorem Spells.ne_nil {core : List Char} {aggregate : Aggregate} (h : aggregate.Spells core) : core ≠ [] := by
  have hall : ∀ aggregate ∈ named, aggregate.text.toList ≠ [] := by decide
  cases h with
  | word mem => exact hall aggregate mem
  | parens _ _ _ _ => exact List.cons_ne_nil _ _
  | bare _ _ _ => exact List.cons_ne_nil _ _

theorem Spells.trimmed {core : List Char} {aggregate : Aggregate} (h : aggregate.Spells core) :
    Trimmed core := by
  cases h with
  | word mem =>
      have hall : ∀ aggregate ∈ named, ∀ c ∈ aggregate.text.toList, isBlank c = false := by decide
      exact trimmed_of_all (hall aggregate mem)
  | parens _ _ _ _ =>
      constructor
      · intro c mem
        obtain rfl : 'p' = c := Option.some.inj mem
        decide
      · intro c mem
        rw [List.getLast?_concat] at mem
        obtain rfl : ')' = c := Option.some.inj mem
        decide
  | bare _ denotes _ =>
      constructor
      · intro c mem
        obtain rfl : 'p' = c := Option.some.inj mem
        decide
      · intro c mem
        rw [← List.cons_append, List.getLast?_append_of_ne_nil _ (Binary64.ne_nil_of_ofList? denotes)] at mem
        exact Binary64.not_blank_of_ofList? denotes c (List.mem_of_mem_getLast? mem)

/-- **A spelling is read with blanks around it.** -/
theorem Spells.ofText? {core before after : List Char} {aggregate : Aggregate} (h : aggregate.Spells core)
    (hbefore : Blanks before) (hafter : Blanks after) :
    Aggregate.ofText? (before ++ core ++ after) = .ok aggregate := by
  have htrim := trimList_padding hbefore hafter h.trimmed
  cases h with
  | word mem =>
      have hall : ∀ aggregate ∈ named,
          named.find? (fun other => other.text == String.ofList aggregate.text.toList) = some aggregate := by
        decide
      rw [Aggregate.ofText?, htrim]
      simp only [hall aggregate mem]
  | @parens left numeral right p hleft hright denotes hrange =>
      refine ofText?_percentile htrim (percentText?_parens _) ?_ hrange
      rw [Binary64.trimList_numeral hleft hright denotes, denotes]
  | @bare left numeral p hleft denotes hrange =>
      -- What follows the letter is blank or the numeral, so no parenthesis.
      have hparen : ∀ c ∈ (left ++ numeral).head?, c ≠ '(' := by
        intro c mem
        rcases List.mem_append.mp (List.mem_of_mem_head? mem) with hc | hc
        · rintro rfl
          exact absurd (hleft _ hc) (by decide)
        · exact (not_mark_of_mem_alphabet (Binary64.mem_alphabet_of_ofList? denotes c hc)).2.2.1
      refine ofText?_percentile htrim (percentText?_bare hparen) ?_ hrange
      have htrimmed := Binary64.trimList_numeral hleft blanks_nil denotes
      rw [List.append_nil] at htrimmed
      rw [htrimmed, denotes]

/-- **Whatever is read is a spelling with blanks around it.** -/
theorem exists_spells {cs : List Char} {aggregate : Aggregate} (h : ofText? cs = .ok aggregate) :
    ∃ before core after, Blanks before ∧ aggregate.Spells core ∧ Blanks after
      ∧ cs = before ++ core ++ after := by
  obtain ⟨before, after, hbefore, hafter, htrim, hcs⟩ := exists_padding cs
  refine ⟨before, trimList cs, after, hbefore, ?_, hafter, hcs⟩
  unfold ofText? at h
  generalize trimList cs = core at h htrim
  simp only at h
  split at h
  · next found hfind =>
    obtain rfl : found = aggregate := Except.ok.inj h
    have htext : found.text = String.ofList core := by simpa using List.find?_some hfind
    have hcore : core = found.text.toList := by rw [htext, String.toList_ofList]
    rw [hcore]
    exact .word (List.mem_of_find?_eq_some hfind)
  · split at h
    · cases h
    · next digits hpercent =>
      split at h
      · cases h
      · next p denotes =>
        split at h
        · next hrange =>
          obtain rfl : Aggregate.percentile p = aggregate := Except.ok.inj h
          obtain ⟨left, right, hleft, hright, -, hdigits⟩ := exists_padding digits
          rcases percentText?_eq_some hpercent with rfl | rfl
          · rw [hdigits]
            exact .parens hleft hright denotes hrange
          · -- Blanks behind the numeral would be blanks at the end.
            rw [hdigits, ← List.cons_append] at htrim
            obtain rfl : right = [] := htrim.eq_nil_of_blanks hright
            rw [hdigits, List.append_nil]
            exact .bare hleft denotes hrange
        · cases h

/-- The characters of an aggregate beside those of numerals. -/
def letters : List Char := "p()avgminmaxmedcountrate".toList

theorem Spells.mem {core : List Char} {aggregate : Aggregate} (h : aggregate.Spells core) :
    ∀ c ∈ core, isBlank c = true ∨ c ∈ Numeral.alphabet ∨ c ∈ letters := by
  have hnumeral {numeral : List Char} {p : Binary64} (denotes : Binary64.ofList? numeral = some p) :
      ∀ c ∈ numeral, isBlank c = true ∨ c ∈ Numeral.alphabet ∨ c ∈ letters := by
    intro c mem
    exact .inr (.inl (Binary64.mem_alphabet_of_ofList? denotes c mem))
  cases h with
  | word mem =>
      have hall : ∀ aggregate ∈ named, ∀ c ∈ aggregate.text.toList, c ∈ letters := by decide
      intro c hc
      exact .inr (.inr (hall aggregate mem c hc))
  | parens hbefore hafter denotes hrange =>
      intro c mem
      simp only [List.mem_append] at mem
      rcases mem with (hp | (hbefore' | hc) | hafter') | hp
      · exact .inr (.inr ((by decide : ['p', '('] ⊆ letters) hp))
      · exact .inl (hbefore c hbefore')
      · exact hnumeral denotes c hc
      · exact .inl (hafter c hafter')
      · exact .inr (.inr ((by decide : [')'] ⊆ letters) hp))
  | bare hbefore denotes hrange =>
      intro c mem
      rcases List.mem_cons.mp mem with rfl | mem
      · exact .inr (.inr (by decide))
      · rcases List.mem_append.mp mem with hbefore' | hc
        · exact .inl (hbefore c hbefore')
        · exact hnumeral denotes c hc

/-- The canonical text is a spelling. -/
theorem spells_text {aggregate : Aggregate}
    (h : ∀ p, aggregate = .percentile p → 0 ≤ p ∧ p ≤ 100) : aggregate.Spells aggregate.text.toList := by
  cases aggregate with
  | percentile p =>
      have hrange := h p rfl
      have hfinite : p.isFinite = true := Binary64.isFinite_of_between
        (Binary64.isFinite_ofNat (n := 0) (by decide)) (Binary64.isFinite_ofNat (n := 100) (by decide))
        hrange.1 hrange.2
      have hspells := Spells.parens blanks_nil blanks_nil (Binary64.ofList?_plainText hfinite) hrange
      simpa [text, String.toList_append] using hspells
  | _ => exact .word (by decide)

end Aggregate

/-! ### Signs -/

namespace Comparison

/-- The signs of a comparison. -/
def signs : Comparison → List (List Char)
  | .less => [['<']]
  | .atMost => [['<', '=']]
  | .greater => [['>']]
  | .atLeast => [['>', '=']]
  | .equal => [['=', '='], ['=']]

theorem text_mem_signs (comparison : Comparison) : comparison.text.toList ∈ comparison.signs := by
  cases comparison <;> decide

/-- What is split off is a sign. -/
theorem split?_eq_some {cs rest : List Char} {comparison : Comparison}
    (h : split? cs = some (comparison, rest)) : ∃ sign ∈ comparison.signs, cs = sign ++ rest := by
  unfold split? at h
  split at h <;> cases h
  · exact ⟨['<', '='], by decide, rfl⟩
  · exact ⟨['>', '='], by decide, rfl⟩
  · exact ⟨['=', '='], by decide, rfl⟩
  · exact ⟨['<'], by decide, rfl⟩
  · exact ⟨['>'], by decide, rfl⟩
  · exact ⟨['='], by decide, rfl⟩

/-- A sign is split off unless what follows it could lengthen it. -/
theorem split?_append {comparison : Comparison} {sign rest : List Char} (mem : sign ∈ comparison.signs)
    (h : ∀ c ∈ rest.head?, isSign c = false) : split? (sign ++ rest) = some (comparison, rest) := by
  cases rest with
  | nil =>
      revert sign
      cases comparison <;> decide
  | cons c rest =>
      have hequal : c ≠ '=' := by
        rintro rfl
        exact absurd (h '=' rfl) (by decide)
      cases comparison <;> simp only [signs, List.mem_cons, List.not_mem_nil, or_false] at mem
      case less | greater =>
        subst mem
        simp [split?, hequal]
      case atMost | atLeast =>
        subst mem
        rfl
      case equal =>
        rcases mem with rfl | rfl
        · rfl
        · simp [split?, hequal]

/-- Every sign begins with a character that ends the aggregate. -/
theorem isSign_head {comparison : Comparison} {sign : List Char} (mem : sign ∈ comparison.signs)
    (rest : List Char) : ∀ c ∈ (sign ++ rest).head?, isSign c = true := by
  have hall : ∀ sign ∈ comparison.signs, sign ≠ [] ∧ ∀ c ∈ sign.head?, isSign c = true := by
    cases comparison <;> decide
  obtain ⟨hne, hhead⟩ := hall sign mem
  rw [List.head?_append_of_ne_nil sign hne]
  exact hhead

end Comparison

/-! ### Criteria -/

namespace Expression

/-- The texts of a criterion. -/
inductive Spells (e : Expression) : List Char → Prop where
  | intro {before core between sign gap numeral after : List Char} (hbefore : Blanks before)
      (aggregate : e.aggregate.Spells core) (hbetween : Blanks between) (comparison : sign ∈ e.comparison.signs)
      (hgap : Blanks gap) (denotes : Binary64.ofList? numeral = some e.bound)
      (finite : e.bound.isFinite = true) (hafter : Blanks after) :
      e.Spells ((before ++ core ++ between) ++ (sign ++ (gap ++ numeral ++ after)))

theorem isSign_of_isBlank {c : Char} (h : isBlank c = true) : Comparison.isSign c = false := by
  refine Bool.eq_false_iff.mpr ?_
  intro hsign
  have hcases : c = '<' ∨ c = '>' ∨ c = '=' := by simpa [Comparison.isSign, or_assoc] using hsign
  rcases hcases with rfl | rfl | rfl <;> exact absurd h (by decide)

/-- No sign stands in an aggregate with blanks around it. -/
theorem isSign_eq_false_of_spells {aggregate : Aggregate} {before core after : List Char}
    (hbefore : Blanks before) (h : aggregate.Spells core) (hafter : Blanks after) :
    ∀ c ∈ before ++ core ++ after, Comparison.isSign c = false := by
  have hletters : ∀ c ∈ Aggregate.letters, Comparison.isSign c = false := by decide
  intro c mem
  rcases List.mem_append.mp mem with mem | mem
  · rcases List.mem_append.mp mem with mem | mem
    · exact isSign_of_isBlank (hbefore c mem)
    · rcases h.mem c mem with hc | hc | hc
      · exact isSign_of_isBlank hc
      · exact (not_mark_of_mem_alphabet hc).2.1
      · exact hletters c hc
  · exact isSign_of_isBlank (hafter c mem)

/-- Nor does one stand in a numeral. -/
theorem isSign_eq_false_of_numeral {gap numeral after : List Char} {x : Binary64} (hgap : Blanks gap)
    (denotes : Binary64.ofList? numeral = some x) (hafter : Blanks after) :
    ∀ c ∈ gap ++ numeral ++ after, Comparison.isSign c = false := by
  intro c mem
  rcases List.mem_append.mp mem with mem | mem
  · rcases List.mem_append.mp mem with mem | mem
    · exact isSign_of_isBlank (hgap c mem)
    · exact (not_mark_of_mem_alphabet (Binary64.mem_alphabet_of_ofList? denotes c mem)).2.1
  · exact isSign_of_isBlank (hafter c mem)

/-- **A text denotes a criterion exactly if it spells it.** -/
theorem ofText?_eq_ok_iff_spells {s : String} {e : Expression} : ofText? s = .ok e ↔ e.Spells s.toList := by
  constructor
  · intro h
    unfold ofText? at h
    simp +zetaDelta only at h
    split at h
    · cases h
    · next comparison rest hsplit =>
      obtain ⟨aggregate, haggregate, h⟩ := bind_eq_ok_iff.mp h
      split at h
      · cases h
      · next bound denotes =>
        split at h
        · next finite =>
          obtain rfl : Expression.mk aggregate comparison bound = e := Except.ok.inj h
          obtain ⟨before, core, between, hbefore, hspells, hbetween, hleft⟩ := Aggregate.exists_spells haggregate
          obtain ⟨sign, mem, hright⟩ := Comparison.split?_eq_some hsplit
          obtain ⟨gap, after, hgap, hafter, -, hrest⟩ := exists_padding rest
          rw [← List.takeWhile_append_dropWhile (p := fun c => !Comparison.isSign c) (l := s.toList), hleft,
            hright, hrest]
          exact .intro hbefore hspells hbetween mem hgap denotes finite hafter
        · cases h
  · intro h
    generalize hs : s.toList = cs at h
    cases h with
    | @intro before core between sign gap numeral after hbefore aggregate hbetween comparison hgap denotes finite
        hafter =>
        -- The aggregate ends where the first sign stands.
        obtain ⟨htake, hdrop⟩ := takeWhile_dropWhile_append
          (isSign_eq_false_of_spells hbefore aggregate hbetween)
          (Comparison.isSign_head comparison (gap ++ numeral ++ after))
        have hsplit := Comparison.split?_append comparison fun c mem =>
          isSign_eq_false_of_numeral hgap denotes hafter c (List.mem_of_mem_head? mem)
        have haggregate := aggregate.ofText? hbefore hbetween
        have hnumeral := Binary64.trimList_numeral hgap hafter denotes
        unfold ofText?
        simp only [hs, htake, hdrop, hsplit, haggregate, hnumeral, denotes, finite, if_true]
        rfl

/-- A text spells what it spells with blanks around it. -/
theorem Spells.trim {cs : List Char} {e : Expression} (h : e.Spells cs) : e.Spells (trimList cs) := by
  cases h with
  | @intro before core between sign gap numeral after hbefore aggregate hbetween comparison hgap denotes finite
      hafter =>
      have hcore := aggregate.ne_nil
      have hnumeral := Binary64.ne_nil_of_ofList? denotes
      have htrim : Trimmed ((core ++ between) ++ (sign ++ (gap ++ numeral))) := by
        constructor
        · intro c mem
          rw [List.append_assoc, List.head?_append_of_ne_nil _ hcore] at mem
          exact aggregate.trimmed.1 c mem
        · intro c mem
          rw [← List.append_assoc sign, ← List.append_assoc, List.getLast?_append_of_ne_nil _ hnumeral] at mem
          exact (trimmed_of_all (Binary64.not_blank_of_ofList? denotes)).2 c mem
      have hspells := Spells.intro blanks_nil aggregate hbetween comparison hgap denotes finite blanks_nil
      have hpadding := trimList_padding hbefore hafter htrim
      simp only [List.nil_append, List.append_nil, List.append_assoc] at hspells hpadding ⊢
      rw [hpadding]
      exact hspells

/-- A finite bound, and a percentile between 0 and 100. -/
structure Valid (e : Expression) : Prop where
  bound : e.bound.isFinite = true
  percentile : ∀ p, e.aggregate = .percentile p → 0 ≤ p ∧ p ≤ 100

theorem Spells.valid {cs : List Char} {e : Expression} (h : e.Spells cs) : e.Valid := by
  cases h with
  | intro hbefore aggregate hbetween comparison hgap denotes finite hafter =>
      refine ⟨finite, ?_⟩
      intro p heq
      rw [heq] at aggregate
      cases aggregate with
      | word mem => simp [Aggregate.named] at mem
      | parens _ _ _ hrange => exact hrange
      | bare _ _ hrange => exact hrange

/-- **The canonical text spells the criterion.** -/
theorem Valid.spells_text {e : Expression} (h : e.Valid) : e.Spells e.text.toList := by
  have hspells := Spells.intro blanks_nil (Aggregate.spells_text h.percentile) blanks_nil
    e.comparison.text_mem_signs blanks_nil (Binary64.ofList?_plainText h.bound) h.bound blanks_nil
  simpa [text, String.toList_append] using hspells

theorem valid_iff_ofText?_text {e : Expression} : e.Valid ↔ ofText? e.text = .ok e := by
  constructor
  · intro h
    exact ofText?_eq_ok_iff_spells.mpr h.spells_text
  · intro h
    exact (ofText?_eq_ok_iff_spells.mp h).valid

/-- The canonical form of a text that denotes a criterion. -/
def canonical? (s : String) : Except Fault String := text <$> ofText? s

/-- Only the texts of a criterion have its canonical text as their canonical form. -/
theorem ofText?_eq_ok_iff_canonical {s : String} {e : Expression} :
    ofText? s = .ok e ↔ e.Valid ∧ canonical? s = .ok e.text := by
  constructor
  · intro h
    refine ⟨(ofText?_eq_ok_iff_spells.mp h).valid, ?_⟩
    rw [canonical?, h]
    rfl
  · intro ⟨valid, hcanonical⟩
    obtain ⟨other, hother, htext⟩ := map_eq_ok_iff.mp hcanonical
    have hread := valid_iff_ofText?_text.mp (ofText?_eq_ok_iff_spells.mp hother).valid
    rw [htext, valid_iff_ofText?_text.mp valid] at hread
    rw [hother, Except.ok.inj hread]

theorem canonical?_canonical? (s : String) : (canonical? s >>= canonical?) = canonical? s := by
  cases hread : ofText? s with
  | error fault => simp [canonical?, hread, Functor.map, Except.map, bind, Except.bind]
  | ok e =>
      have htext := valid_iff_ofText?_text.mp (ofText?_eq_ok_iff_spells.mp hread).valid
      simp [canonical?, hread, htext, Functor.map, Except.map, bind, Except.bind]

/-- **Reading and printing agree.** A text denotes a criterion if it spells it, and if the canonical text of the
criterion is its canonical form; the criteria of all texts are those that their canonical texts denote; and a
canonical form is its own. -/
theorem canonical_form (s : String) (e : Expression) :
    (ofText? s = .ok e ↔ e.Spells s.toList)
      ∧ (ofText? s = .ok e ↔ e.Valid ∧ canonical? s = .ok e.text)
      ∧ (e.Valid ↔ ofText? e.text = .ok e)
      ∧ (canonical? s >>= canonical?) = canonical? s :=
  ⟨ofText?_eq_ok_iff_spells, ofText?_eq_ok_iff_canonical, valid_iff_ofText?_text, canonical?_canonical? s⟩

example : canonical? " p95 = 3e2" = .ok "p(95)==300" := by decide +kernel

end Expression

end LoadTest.Threshold
