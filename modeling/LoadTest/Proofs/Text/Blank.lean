import LoadTest.Text.Blank
import Mathlib.Data.List.Basic

/-!
# LoadTest.Proofs.Text.Blank

What is cut off a text and what is kept. **Trimming takes away blanks on both sides and nothing else**
(`exists_padding`), and what has no blank at its ends is found again between any blanks (`trimList_padding`).
-/

namespace LoadTest.Text

/-! ### Decisions -/

-- What is asked of the characters of a text is decided on the text, and not on all characters there are.

instance decidableForallMemList (p : Char → Prop) [DecidablePred p] (cs : List Char) :
    Decidable (∀ c ∈ cs, p c) := List.decidableBAll p cs

instance decidableForallMemOption (p : Char → Prop) [DecidablePred p] (c? : Option Char) :
    Decidable (∀ c ∈ c?, p c) := Option.decidableForallMem c?

/-! ### Heads and tails -/

theorem dropHead?_eq_some_iff {head cs rest : List Char} :
    dropHead? head cs = some rest ↔ cs = head ++ rest := by
  unfold dropHead?
  split
  · next hhead =>
    obtain ⟨tail, rfl⟩ := List.isPrefixOf_iff_prefix.mp hhead
    rw [List.drop_left, Option.some.injEq, List.append_cancel_left_eq]
  · next hhead =>
    refine iff_of_false (by simp) ?_
    intro heq
    exact hhead (List.isPrefixOf_iff_prefix.mpr (heq ▸ List.prefix_append head rest))

theorem dropTail?_eq_some_iff {tail cs rest : List Char} :
    dropTail? tail cs = some rest ↔ cs = rest ++ tail := by
  unfold dropTail?
  split
  · next htail =>
    obtain ⟨head, rfl⟩ := List.isSuffixOf_iff_suffix.mp htail
    rw [List.length_append, Nat.add_sub_cancel, List.take_left, Option.some.injEq,
      List.append_cancel_right_eq]
  · next htail =>
    refine iff_of_false (by simp) ?_
    intro heq
    exact htail (List.isSuffixOf_iff_suffix.mpr (heq ▸ List.suffix_append rest tail))

/-- What stands before the first mark, and the rest. -/
theorem takeWhile_dropWhile_append {p : Char → Bool} {left rest : List Char} (hleft : ∀ c ∈ left, p c = false)
    (hrest : ∀ c ∈ rest.head?, p c = true) :
    ((left ++ rest).takeWhile fun c => !p c) = left ∧ ((left ++ rest).dropWhile fun c => !p c) = rest := by
  have hpos : ∀ c ∈ left, (!p c) = true := by
    intro c mem
    rw [hleft c mem]
    rfl
  rw [List.takeWhile_append_of_pos hpos, List.dropWhile_append_of_pos hpos]
  cases rest with
  | nil => simp
  | cons c rest => simp [hrest c rfl]

/-! ### What is cut off at the end -/

/-- Characters for which `p` holds are taken off the end, and no others. -/
theorem exists_dropEndWhile (p : Char → Bool) (cs : List Char) :
    ∃ after, (∀ c ∈ after, p c = true) ∧ cs = dropEndWhile p cs ++ after := by
  refine ⟨(cs.reverse.takeWhile p).reverse, ?_, ?_⟩
  · intro c mem
    exact List.all_eq_true.mp List.all_takeWhile c (List.mem_reverse.mp mem)
  · rw [dropEndWhile, ← List.reverse_append, List.takeWhile_append_dropWhile, List.reverse_reverse]

theorem dropEndWhile_append {p : Char → Bool} {after : List Char} (h : ∀ c ∈ after, p c = true)
    (cs : List Char) : dropEndWhile p (cs ++ after) = dropEndWhile p cs := by
  have hafter : ∀ c ∈ after.reverse, p c = true := by
    intro c mem
    exact h c (List.mem_reverse.mp mem)
  rw [dropEndWhile, dropEndWhile, List.reverse_append, List.dropWhile_append_of_pos hafter]

/-- Nothing is taken off the end where the last character is to stay. -/
theorem dropEndWhile_eq_self {p : Char → Bool} {cs : List Char} (h : ∀ c ∈ cs.getLast?, p c = false) :
    dropEndWhile p cs = cs := by
  rw [dropEndWhile]
  cases hreverse : cs.reverse with
  | nil => simpa using hreverse.symm
  | cons c rest =>
      have hlast : p c = false := by
        refine h c ?_
        rw [← List.head?_reverse, hreverse]
        rfl
      rw [List.dropWhile_cons_of_neg (by simp [hlast]), ← hreverse, List.reverse_reverse]

theorem getLast?_dropEndWhile (p : Char → Bool) (cs : List Char) :
    ∀ c ∈ (dropEndWhile p cs).getLast?, p c = false := by
  intro c mem
  rw [dropEndWhile, List.getLast?_reverse] at mem
  have hhead := List.head?_dropWhile_not p cs.reverse
  rw [Option.mem_def.mp mem] at hhead
  simpa using hhead

/-- Nothing is taken off before a character that is to stay. -/
theorem dropEndWhile_append_of_mem {p : Char → Bool} {cs : List Char} {c : Char} (mem : c ∈ cs)
    (stays : p c = false) (before : List Char) :
    dropEndWhile p (before ++ cs) = before ++ dropEndWhile p cs ∧ c ∈ dropEndWhile p cs := by
  obtain ⟨after, hafter, heq⟩ := exists_dropEndWhile p cs
  have hc : c ∈ dropEndWhile p cs := by
    rw [heq] at mem
    refine (List.mem_append.mp mem).resolve_right ?_
    intro hmem
    simp [hafter c hmem] at stays
  refine ⟨?_, hc⟩
  have hlast : ∀ d ∈ (before ++ dropEndWhile p cs).getLast?, p d = false := by
    rw [List.getLast?_append_of_ne_nil _ (List.ne_nil_of_mem hc)]
    exact getLast?_dropEndWhile p cs
  calc dropEndWhile p (before ++ cs) = dropEndWhile p ((before ++ dropEndWhile p cs) ++ after) := by
        rw [List.append_assoc, ← heq]
    _ = before ++ dropEndWhile p cs := by rw [dropEndWhile_append hafter, dropEndWhile_eq_self hlast]

/-! ### Trimming -/

/-- Nothing but blanks. -/
def Blanks (cs : List Char) : Prop := ∀ c ∈ cs, isBlank c = true

/-- Neither the first nor the last character is blank. -/
def Trimmed (cs : List Char) : Prop :=
  (∀ c ∈ cs.head?, isBlank c = false) ∧ ∀ c ∈ cs.getLast?, isBlank c = false

theorem blanks_nil : Blanks [] := List.forall_mem_nil _

theorem Blanks.append {before after : List Char} (hbefore : Blanks before) (hafter : Blanks after) :
    Blanks (before ++ after) := List.forall_mem_append.mpr ⟨hbefore, hafter⟩

theorem trimmed_of_all {cs : List Char} (h : ∀ c ∈ cs, isBlank c = false) : Trimmed cs := by
  constructor
  · intro c mem
    exact h c (List.mem_of_mem_head? mem)
  · intro c mem
    exact h c (List.mem_of_mem_getLast? mem)

theorem Trimmed.append {cs after : List Char} (h : Trimmed cs) (hafter : ∀ c ∈ after, isBlank c = false) :
    Trimmed (cs ++ after) := by
  constructor
  · intro c mem
    rw [List.head?_append, Option.mem_def, Option.or_eq_some_iff] at mem
    rcases mem with hhead | ⟨-, hhead⟩
    · exact h.1 c hhead
    · exact hafter c (List.mem_of_mem_head? hhead)
  · intro c mem
    rw [List.getLast?_append, Option.mem_def, Option.or_eq_some_iff] at mem
    rcases mem with hlast | ⟨-, hlast⟩
    · exact hafter c (List.mem_of_mem_getLast? hlast)
    · exact h.2 c hlast

theorem Trimmed.eq_nil_of_blanks {cs after : List Char} (h : Trimmed (cs ++ after)) (hafter : Blanks after) :
    after = [] := by
  by_contra hne
  have hlast : isBlank (after.getLast hne) = false := by
    refine h.2 _ ?_
    rw [List.getLast?_append_of_ne_nil _ hne]
    exact List.getLast?_eq_some_getLast hne
  simp [hafter _ (List.getLast_mem hne)] at hlast

/-- **What has no blank at its ends is found again between blanks.** -/
theorem trimList_padding {before cs after : List Char} (hbefore : Blanks before) (hafter : Blanks after)
    (h : Trimmed cs) : trimList (before ++ cs ++ after) = cs := by
  rw [trimList, List.append_assoc, List.dropWhile_append_of_pos hbefore]
  cases cs with
  | nil =>
      have hnone : (after ++ []).dropWhile isBlank = [].dropWhile isBlank :=
        List.dropWhile_append_of_pos hafter
      rw [List.append_nil] at hnone
      rw [List.nil_append, hnone]
      rfl
  | cons c rest =>
      have hc : isBlank c = false := h.1 c rfl
      rw [List.cons_append, List.dropWhile_cons_of_neg (by simp [hc]), ← List.cons_append,
        dropEndWhile_append hafter, dropEndWhile_eq_self h.2]

theorem trimList_eq_self {cs : List Char} (h : Trimmed cs) : trimList cs = cs := by
  simpa using trimList_padding blanks_nil blanks_nil h

theorem trim_eq_self {s : String} (h : Trimmed s.toList) : trim s = s := by
  rw [trim, trimList_eq_self h, String.ofList_toList]

/-- **Trimming takes away blanks on both sides,** as many as there are, and nothing else. -/
theorem exists_padding (cs : List Char) : ∃ before after, Blanks before ∧ Blanks after
    ∧ Trimmed (trimList cs) ∧ cs = before ++ trimList cs ++ after := by
  obtain ⟨after, hafter, hrest⟩ := exists_dropEndWhile isBlank (cs.dropWhile isBlank)
  refine ⟨cs.takeWhile isBlank, after, ?_, hafter, ⟨?_, getLast?_dropEndWhile isBlank _⟩, ?_⟩
  · intro c mem
    exact List.all_eq_true.mp List.all_takeWhile c mem
  · intro c mem
    have hhead := List.head?_dropWhile_not isBlank cs
    rw [hrest, ← trimList, List.head?_append, Option.mem_def.mp mem] at hhead
    simpa using hhead
  · rw [List.append_assoc, trimList, ← hrest, List.takeWhile_append_dropWhile]

theorem trimmed_trim (s : String) : Trimmed (trim s).toList := by
  obtain ⟨before, after, -, -, h, -⟩ := exists_padding s.toList
  rwa [trim, String.toList_ofList]

/-- What a text has between the blanks at its ends. -/
def Core (s core : String) : Prop :=
  Trimmed core.toList ∧ ∃ before after, Blanks before ∧ Blanks after ∧ s.toList = before ++ core.toList ++ after

theorem core_iff {s core : String} : Core s core ↔ core = trim s := by
  constructor
  · rintro ⟨htrimmed, before, after, hbefore, hafter, hs⟩
    rw [trim, hs, trimList_padding hbefore hafter htrimmed, String.ofList_toList]
  · rintro rfl
    obtain ⟨before, after, hbefore, hafter, htrimmed, hs⟩ := exists_padding s.toList
    rw [Core, trim, String.toList_ofList]
    exact ⟨htrimmed, before, after, hbefore, hafter, hs⟩

end LoadTest.Text
