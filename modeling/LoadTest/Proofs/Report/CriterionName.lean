import LoadTest.Proofs.Threshold.Canonical
import LoadTest.Report.Csv
import LoadTest.Scenario.Basic

/-!
# LoadTest.Proofs.Report.CriterionName

The names of criteria in a table. **A name keeps what tells one criterion from another** (`eq_of_criterionName`):
spaces, parentheses and the spelling of the sign do not. It has no comma, and a line break only where the text of
the criterion has one (`mem_criterionName_iff`).
-/

namespace LoadTest.Report

open Text Threshold

/-! ### Replacing -/

section Replace

variable {old new left mid right : List Char}

/-- What is looked for is not found across the border to a text that has none of its characters. -/
theorem isPrefixOf_append (apart : ∀ c ∈ right, c ∉ old) (mid : List Char) :
    old.isPrefixOf (mid ++ right) = old.isPrefixOf mid := by
  rw [Bool.eq_iff_iff, List.isPrefixOf_iff_prefix, List.isPrefixOf_iff_prefix]
  constructor
  · intro h
    rcases List.prefix_or_prefix_of_prefix h (List.prefix_append mid right) with hmid | hold
    · exact hmid
    · obtain ⟨tail, rfl⟩ := hold
      obtain rfl : tail = [] := by
        refine List.eq_nil_iff_forall_not_mem.mpr ?_
        intro c mem
        have htail : tail <+: right := (List.prefix_append_right_inj mid).mp h
        exact apart c (htail.subset mem) (List.mem_append_right mid mem)
      exact (List.append_nil mid).symm ▸ List.prefix_refl mid
  · intro h
    exact h.trans (List.prefix_append mid right)

theorem isPrefixOf_cons_of_not_mem (hne : old ≠ []) {c : Char} (hc : c ∉ old) (cs : List Char) :
    old.isPrefixOf (c :: cs) = false := by
  cases old with
  | nil => exact absurd rfl hne
  | cons o old =>
      have ho : (o == c) = false := by
        simpa using fun heq : o = c => hc (heq ▸ List.mem_cons_self)
      simp [List.isPrefixOf, ho]

theorem replaceFrom_of_apart (apart : ∀ c ∈ right, c ∉ old) (hne : old ≠ []) (n : Nat) :
    replaceFrom old new n right = right := by
  induction right generalizing n with
  | nil => simp [replaceFrom]
  | cons c right ih =>
      cases n with
      | zero => simp [replaceFrom]
      | succ n =>
          obtain ⟨hc, hright⟩ := List.forall_mem_cons.mp apart
          rw [replaceFrom, isPrefixOf_cons_of_not_mem hne hc, ih hright]
          simp

/-- Behind the text in which something is replaced, nothing is; and more fuel than there is text is not used. -/
theorem replaceFrom_append (apart : ∀ c ∈ right, c ∉ old) (hne : old ≠ []) {n m : Nat} (hn : mid.length ≤ n)
    (hm : mid.length ≤ m) : replaceFrom old new n (mid ++ right) = replaceFrom old new m mid ++ right := by
  induction n generalizing mid m with
  | zero =>
      obtain rfl : mid = [] := List.length_eq_zero_iff.mp (Nat.le_zero.mp hn)
      simp [replaceFrom, replaceFrom_of_apart apart hne]
  | succ n ih =>
      cases mid with
      | nil => simp [replaceFrom, replaceFrom_of_apart apart hne]
      | cons c cs =>
          cases m with
          | zero => cases hm
          | succ m =>
              rw [List.length_cons] at hn hm
              have hrest : replaceFrom old new n (cs ++ right) = replaceFrom old new m cs ++ right :=
                ih (by omega) (by omega)
              have hold : 0 < old.length := List.length_pos_iff.mpr hne
              rw [List.cons_append, replaceFrom, replaceFrom, ← List.cons_append, isPrefixOf_append apart]
              split
              · next hprefix =>
                have hlength := (List.isPrefixOf_iff_prefix.mp hprefix).length_le
                rw [List.length_cons] at hlength
                have hdrop : ((c :: cs).drop old.length).length ≤ cs.length := by
                  rw [List.length_drop, List.length_cons]
                  omega
                rw [List.drop_append_of_le_length (by simpa using hlength),
                  ih (m := m) (Nat.le_trans hdrop (by omega)) (Nat.le_trans hdrop (by omega)), List.append_assoc]
              · rw [hrest, List.cons_append]

/-- Before the text in which something is replaced, nothing is. -/
theorem replaceFrom_append_left (apart : ∀ c ∈ left, c ∉ old) (hne : old ≠ []) (n : Nat) (cs : List Char) :
    replaceFrom old new (left.length + n) (left ++ cs) = left ++ replaceFrom old new n cs := by
  induction left with
  | nil => simp
  | cons c left ih =>
      obtain ⟨hc, hleft⟩ := List.forall_mem_cons.mp apart
      rw [List.length_cons, Nat.add_right_comm, List.cons_append, replaceFrom,
        isPrefixOf_cons_of_not_mem hne hc, ih hleft]
      simp

theorem replace_between {old new : String} (hne : old.toList ≠ []) (hleft : ∀ c ∈ left, c ∉ old.toList)
    (hright : ∀ c ∈ right, c ∉ old.toList) :
    replace old new (left ++ (mid ++ right)) = left ++ (replace old new mid ++ right) := by
  rw [replace, replace, List.length_append, replaceFrom_append_left hleft hne,
    replaceFrom_append hright hne (by simp) (Nat.le_refl _)]

end Replace

/-! ### Signs -/

/-- The characters of the names of series. -/
def nameLetters : List Char := "_abcdefghijklmnopqrstuvwxyz".toList

/-- A text with the comparison signs spelt out. -/
def spellOut (cs : List Char) : List Char := signNames.foldl (fun cs (sign, name) => replace sign name cs) cs

/-- Signs are spelt out between texts that have none. -/
theorem spellOut_between {left right : List Char} (hleft : ∀ c ∈ left, Comparison.isSign c = false)
    (hright : ∀ c ∈ right, Comparison.isSign c = false) (mid : List Char) :
    spellOut (left ++ (mid ++ right)) = left ++ (spellOut mid ++ right) := by
  have hsigns : ∀ pair ∈ signNames, pair.1.toList ≠ [] ∧ ∀ c ∈ pair.1.toList, Comparison.isSign c = true := by
    decide
  unfold spellOut
  generalize signNames = names at hsigns
  induction names generalizing mid with
  | nil => rfl
  | cons pair names ih =>
      obtain ⟨⟨hne, hpair⟩, hnames⟩ := List.forall_mem_cons.mp hsigns
      have apart {cs : List Char} (hcs : ∀ c ∈ cs, Comparison.isSign c = false) : ∀ c ∈ cs, c ∉ pair.1.toList := by
        intro c mem hc
        exact absurd (hpair c hc) (by simp [hcs c mem])
      rw [List.foldl_cons, List.foldl_cons, ← ih _ hnames]
      simp only [replace_between hne (apart hleft) (apart hright)]

/-- What a sign becomes. -/
theorem mem_spellOut {comparison : Comparison} {sign : List Char} (mem : sign ∈ comparison.signs) :
    ∀ c ∈ spellOut sign, c = '=' ∨ c ∈ nameLetters := by
  have hall : ∀ sign ∈ comparison.signs, ∀ c ∈ spellOut sign, c = '=' ∨ c ∈ nameLetters := by
    cases comparison <;> decide +kernel
  exact hall sign mem

/-! ### Parts -/

/-- The characters that a name keeps. -/
def isKept (c : Char) : Bool := decide (c ≠ ' ' ∧ c ≠ '(' ∧ c ≠ ')')

/-- The characters that say which criterion it is. -/
def isSolid (c : Char) : Bool := !isBlank c && isKept c

/-- A criterion as it is written: its sign, and what stands on both sides of it. -/
structure Parts (e : Expression) (cs : List Char) where
  left : List Char
  sign : List Char
  right : List Char
  eq_append : cs = left ++ (sign ++ right)
  left_apart : ∀ c ∈ left, Comparison.isSign c = false
  sign_mem : sign ∈ e.comparison.signs
  right_apart : ∀ c ∈ right, Comparison.isSign c = false
  aggregate : e.aggregate.Spells (left.filter isSolid)
  bound : Binary64.ofList? (right.filter isSolid) = some e.bound

theorem filter_isSolid_padding {before core after : List Char} (hbefore : Blanks before) (hafter : Blanks after) :
    (before ++ core ++ after).filter isSolid = core.filter isSolid := by
  have hnone {blanks : List Char} (h : Blanks blanks) : blanks.filter isSolid = [] := by
    refine List.filter_eq_nil_iff.mpr ?_
    intro c mem
    simp [isSolid, h c mem]
  rw [List.filter_append, List.filter_append, hnone hbefore, hnone hafter, List.nil_append, List.append_nil]

theorem filter_isSolid_numeral {numeral : List Char} {x : Binary64} (denotes : Binary64.ofList? numeral = some x) :
    numeral.filter isSolid = numeral := by
  have hall : ∀ c ∈ Numeral.alphabet, isSolid c = true := by decide
  refine List.filter_eq_self.mpr ?_
  intro c mem
  exact hall c (Binary64.mem_alphabet_of_ofList? denotes c mem)

/-- An aggregate is spelled without blanks and parentheses, too. -/
theorem spells_filter {core : List Char} {aggregate : Aggregate} (h : aggregate.Spells core) :
    aggregate.Spells (core.filter isSolid) := by
  cases h with
  | word mem =>
      have hall : ∀ aggregate ∈ Aggregate.named, aggregate.text.toList.filter isSolid = aggregate.text.toList := by
        decide
      rw [hall aggregate mem]
      exact .word mem
  | @parens before numeral after p hbefore hafter denotes hrange =>
      have hfilter : (['p', '('] ++ (before ++ numeral ++ after) ++ [')']).filter isSolid = 'p' :: ([] ++ numeral) := by
        rw [List.filter_append, List.filter_append, filter_isSolid_padding hbefore hafter,
          filter_isSolid_numeral denotes]
        exact List.append_nil _
      rw [hfilter]
      exact .bare blanks_nil denotes hrange
  | @bare before numeral p hbefore denotes hrange =>
      have hfilter : ('p' :: (before ++ numeral)).filter isSolid = 'p' :: ([] ++ numeral) := by
        have hpadding : (before ++ numeral ++ []).filter isSolid = numeral.filter isSolid :=
          filter_isSolid_padding hbefore blanks_nil
        rw [List.append_nil] at hpadding
        rw [List.filter_cons_of_pos (by decide), hpadding, filter_isSolid_numeral denotes, List.nil_append]
      rw [hfilter]
      exact .bare blanks_nil denotes hrange

theorem nonempty_parts {e : Expression} {cs : List Char} (h : e.Spells cs) : Nonempty (Parts e cs) := by
  cases h with
  | @intro before core between sign gap numeral after hbefore aggregate hbetween comparison hgap denotes finite
      hafter =>
      refine ⟨{
        left := before ++ core ++ between
        sign
        right := gap ++ numeral ++ after
        eq_append := rfl
        left_apart := Expression.isSign_eq_false_of_spells hbefore aggregate hbetween
        sign_mem := comparison
        right_apart := ?_
        aggregate := ?_
        bound := ?_ }⟩
      · exact Expression.isSign_eq_false_of_numeral hgap denotes hafter
      · rw [filter_isSolid_padding hbefore hbetween]
        exact spells_filter aggregate
      · rw [filter_isSolid_padding hgap hafter, filter_isSolid_numeral denotes]
        exact denotes

/-! ### Names -/

section Name

variable {metric source : String} {e : Expression}

/-- What the name of a criterion is made of. -/
theorem toList_criterionName (plain : metric.toList ⊆ nameLetters) (parts : Parts e source.toList) :
    (criterionName metric source).toList
      = metric.toList ++ '_' :: (parts.left.filter isKept ++ (spellOut parts.sign ++ parts.right.filter isKept)) := by
  have hletters : ∀ c ∈ nameLetters, isKept c = true ∧ Comparison.isSign c = false := by decide
  have hmetric : metric.toList.filter isKept = metric.toList :=
    List.filter_eq_self.mpr fun c mem => (hletters c (plain mem)).1
  have hsign : parts.sign.filter isKept = parts.sign := by
    have hall : ∀ sign ∈ e.comparison.signs, sign.filter isKept = sign := by cases e.comparison <;> decide
    exact hall parts.sign parts.sign_mem
  have hname : criterionName metric source
      = String.ofList (spellOut ((metric ++ "_" ++ source).toList.filter isKept)) := rfl
  have hkept : (metric ++ "_" ++ source).toList.filter isKept
      = (metric.toList ++ '_' :: parts.left.filter isKept) ++ (parts.sign ++ parts.right.filter isKept) := by
    simp only [String.toList_append, parts.eq_append, List.filter_append, hmetric, hsign]
    simp [isKept]
  have hleft : ∀ c ∈ metric.toList ++ '_' :: parts.left.filter isKept, Comparison.isSign c = false := by
    refine List.forall_mem_append.mpr ⟨?_, List.forall_mem_cons.mpr ⟨by decide, ?_⟩⟩
    · intro c mem
      exact (hletters c (plain mem)).2
    · intro c mem
      exact parts.left_apart c (List.mem_of_mem_filter mem)
  have hright : ∀ c ∈ parts.right.filter isKept, Comparison.isSign c = false := by
    intro c mem
    exact parts.right_apart c (List.mem_of_mem_filter mem)
  rw [hname, String.toList_ofList, hkept, spellOut_between hleft hright, List.append_assoc, List.cons_append]

/-- What is not dropped, not a letter and no sign is in a name if it is in the text of the criterion. -/
theorem mem_criterionName_iff (plain : metric.toList ⊆ nameLetters) (parts : Parts e source.toList) {c : Char}
    (hkept : isKept c = true) (hletter : c ∉ nameLetters) (hsign : Comparison.isSign c = false) :
    c ∈ (criterionName metric source).toList ↔ c ∈ source.toList := by
  have hmetric : c ∉ metric.toList := fun mem => hletter (plain mem)
  have hunderscore : c ≠ '_' := by
    rintro rfl
    exact hletter (by decide)
  have hspelled : c ∉ spellOut parts.sign := by
    intro mem
    rcases mem_spellOut parts.sign_mem c mem with rfl | hc
    · cases hsign
    · exact hletter hc
  have hmarks : ∀ sign ∈ e.comparison.signs, ∀ c ∈ sign, Comparison.isSign c = true := by
    cases e.comparison <;> decide
  have hnosign : c ∉ parts.sign := by
    intro mem
    simp [hmarks parts.sign parts.sign_mem c mem] at hsign
  have hsource : c ∈ source.toList ↔ c ∈ parts.left ++ (parts.sign ++ parts.right) := by rw [← parts.eq_append]
  rw [toList_criterionName plain parts, hsource]
  simp [hkept, hmetric, hunderscore, hspelled, hnosign]

/-- The text of a criterion has no comma. -/
theorem comma_not_mem {cs : List Char} (h : e.Spells cs) : ',' ∉ cs := by
  have hblank : isBlank ',' = false := by decide
  have hnumeral {numeral : List Char} {x : Binary64} (denotes : Binary64.ofList? numeral = some x) :
      ',' ∉ numeral := by
    intro mem
    exact absurd (Binary64.mem_alphabet_of_ofList? denotes _ mem) (by decide)
  have hblanks {blanks : List Char} (h : Blanks blanks) : ',' ∉ blanks := by
    intro mem
    rw [h _ mem] at hblank
    cases hblank
  cases h with
  | intro hbefore aggregate hbetween comparison hgap denotes finite hafter =>
      have hcore := fun mem => aggregate.mem ',' mem
      have hsigns : ∀ sign ∈ e.comparison.signs, ',' ∉ sign := by cases e.comparison <;> decide
      simp only [List.mem_append, hblanks hbefore, hblanks hbetween, hsigns _ comparison, hblanks hgap,
        hnumeral denotes, hblanks hafter, or_false, false_or]
      intro mem
      rcases hcore mem with hc | hc | hc
      · simp [hblank] at hc
      · exact absurd hc (by decide)
      · exact absurd hc (by decide)

/-- What is left of a name without blanks tells metric, aggregate, sign and bound. -/
theorem filter_criterionName (plain : metric.toList ⊆ nameLetters) (parts : Parts e source.toList) :
    (criterionName metric source).toList.filter isSolid
      = (metric.toList ++ ['_'])
        ++ (parts.left.filter isSolid ++ (spellOut parts.sign ++ parts.right.filter isSolid)) := by
  have hletters : ∀ c ∈ nameLetters, isSolid c = true := by decide
  have hmetric : metric.toList.filter isSolid = metric.toList :=
    List.filter_eq_self.mpr fun c mem => hletters c (plain mem)
  have hspelled : (spellOut parts.sign).filter isSolid = spellOut parts.sign := by
    refine List.filter_eq_self.mpr ?_
    intro c mem
    rcases mem_spellOut parts.sign_mem c mem with rfl | hc
    · decide
    · exact hletters c hc
  have hkept (cs : List Char) : (cs.filter isKept).filter isSolid = cs.filter isSolid := by
    rw [List.filter_filter]
    refine List.filter_congr ?_
    intro c _
    simp [isSolid]
  rw [toList_criterionName plain parts, List.filter_append, List.filter_cons_of_pos (by decide),
    List.filter_append, List.filter_append, hmetric, hkept, hspelled, hkept, List.append_cons]

end Name

/-- Two beginnings of a text are the same if neither is longer than the other. -/
theorem append_inj_of_not_longer {a b c d : List Char} (heq : a ++ c = b ++ d) (hab : a <+: b → a = b)
    (hba : b <+: a → b = a) : a = b ∧ c = d := by
  have hsame : a = b := by
    rcases List.prefix_or_prefix_of_prefix (List.prefix_append a c) (heq ▸ List.prefix_append b d) with h | h
    · exact hab h
    · exact (hba h).symm
  subst hsame
  exact ⟨rfl, List.append_cancel_left heq⟩

/-- The names of series are plain, and none goes on as another. -/
theorem plain_catalog (scenario : Scenario) : ∀ a ∈ scenario.catalog, a.1.toList ⊆ nameLetters
    ∧ ∀ b ∈ scenario.catalog, a.1.toList ++ ['_'] <+: b.1.toList ++ ['_'] → a.1 = b.1 := by
  cases scenario with
  | couponIssue => decide +kernel
  | popularProducts threshold =>
      exact show ∀ a ∈ (Scenario.popularProducts .zero).catalog, a.1.toList ⊆ nameLetters
        ∧ ∀ b ∈ (Scenario.popularProducts .zero).catalog, a.1.toList ++ ['_'] <+: b.1.toList ++ ['_'] → a.1 = b.1
        by decide +kernel

/-- No sign is spelled out as the beginning of another. -/
theorem comparison_eq_of_begins {comparison comparison' : Comparison} {sign sign' : List Char}
    (mem : sign ∈ comparison.signs) (mem' : sign' ∈ comparison'.signs) (h : spellOut sign <+: spellOut sign') :
    spellOut sign = spellOut sign' ∧ comparison = comparison' := by
  have hall : ∀ sign ∈ comparison.signs, ∀ sign' ∈ comparison'.signs, spellOut sign <+: spellOut sign' →
      spellOut sign = spellOut sign' ∧ comparison = comparison' := by
    cases comparison <;> cases comparison' <;> decide +kernel
  exact hall sign mem sign' mem' h

/-- The characters at which an aggregate ends in a name. -/
def endsAggregate (c : Char) : Bool := c == '_' || Comparison.isSign c

theorem endsAggregate_of_spells {core : List Char} {aggregate : Aggregate} (h : aggregate.Spells (core.filter isSolid)) :
    ∀ c ∈ core.filter isSolid, endsAggregate c = false := by
  have hall : ∀ c ∈ Numeral.alphabet ++ Aggregate.letters, endsAggregate c = false := by decide
  intro c mem
  rcases h.mem c mem with hblank | hc | hc
  · simp [isSolid, hblank] at mem
  · exact hall c (List.mem_append_left _ hc)
  · exact hall c (List.mem_append_right _ hc)

theorem endsAggregate_spellOut {comparison : Comparison} {sign : List Char} (mem : sign ∈ comparison.signs)
    (rest : List Char) : ∀ c ∈ (spellOut sign ++ rest).head?, endsAggregate c = true := by
  have hall : ∀ sign ∈ comparison.signs, spellOut sign ≠ [] ∧ ∀ c ∈ (spellOut sign).head?, endsAggregate c = true := by
    cases comparison <;> decide +kernel
  obtain ⟨hne, hhead⟩ := hall sign mem
  rw [List.head?_append_of_ne_nil _ hne]
  exact hhead

/-- **Criteria of one name are one criterion.** -/
theorem eq_of_criterionName {scenario : Scenario} {metric metric' source source' : String} {kind kind' : Metric.Kind}
    {e e' : Expression} (mem : (metric, kind) ∈ scenario.catalog) (mem' : (metric', kind') ∈ scenario.catalog)
    (parts : Parts e source.toList) (parts' : Parts e' source'.toList)
    (heq : criterionName metric source = criterionName metric' source') : metric = metric' ∧ e = e' := by
  obtain ⟨plain, hmetric⟩ := plain_catalog scenario _ mem
  obtain ⟨plain', hmetric'⟩ := plain_catalog scenario _ mem'
  have hfilter := congrArg (fun name => name.toList.filter isSolid) heq
  simp only [filter_criterionName plain parts, filter_criterionName plain' parts'] at hfilter
  -- The metric ends where no other goes on, and the aggregate at the first sign.
  obtain ⟨hname, hrest⟩ := append_inj_of_not_longer hfilter
    (fun h => congrArg (fun name : String => name.toList ++ ['_']) (hmetric _ mem' h))
    (fun h => congrArg (fun name : String => name.toList ++ ['_']) (hmetric' _ mem h))
  have hsplit := takeWhile_dropWhile_append (endsAggregate_of_spells parts.aggregate)
    (endsAggregate_spellOut parts.sign_mem (parts.right.filter isSolid))
  have hsplit' := takeWhile_dropWhile_append (endsAggregate_of_spells parts'.aggregate)
    (endsAggregate_spellOut parts'.sign_mem (parts'.right.filter isSolid))
  rw [← hrest] at hsplit'
  have hleft := hsplit.1.symm.trans hsplit'.1
  obtain ⟨hsign, hright⟩ := append_inj_of_not_longer (hsplit.2.symm.trans hsplit'.2)
    (fun h => (comparison_eq_of_begins parts.sign_mem parts'.sign_mem h).1)
    (fun h => (comparison_eq_of_begins parts'.sign_mem parts.sign_mem h).1)
  have hcomparison := (comparison_eq_of_begins parts.sign_mem parts'.sign_mem (hsign ▸ List.prefix_refl _)).2
  have haggregate : e.aggregate = e'.aggregate := by
    have hread := parts.aggregate.ofText? blanks_nil blanks_nil
    rw [hleft, parts'.aggregate.ofText? blanks_nil blanks_nil] at hread
    exact (Except.ok.inj hread).symm
  have hbound : e.bound = e'.bound := by
    have hread := parts.bound
    rw [hright, parts'.bound] at hread
    exact (Option.some.inj hread).symm
  refine ⟨hmetric _ mem' (hname ▸ List.prefix_refl _), ?_⟩
  calc e = ⟨e.aggregate, e.comparison, e.bound⟩ := rfl
    _ = ⟨e'.aggregate, e'.comparison, e'.bound⟩ := by rw [haggregate, hcomparison, hbound]
    _ = e' := rfl

end LoadTest.Report
