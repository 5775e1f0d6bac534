import Mathlib.Data.List.Forall2

/-!
# LoadTest.Proofs.Fallible

Computations that end with a value or with an error. **Such a computation has a value exactly if each of
its parts has one:** lemmas for parts in sequence and for parts that are all alike.
-/

namespace LoadTest

variable {α β γ ε : Type}

/-- What holds of the value, if there is one, holds of a value. -/
theorem exists_ok_of_any {computed : Except ε α} {p : α → Bool} (h : computed.toOption.any p = true) :
    ∃ a, computed = .ok a ∧ p a = true := by
  cases computed with
  | ok a => exact ⟨a, rfl, h⟩
  | error e => simp [Except.toOption] at h

theorem bind_eq_ok_iff {computed : Except ε α} {f : α → Except ε β} {b : β} :
    (computed >>= f) = .ok b ↔ ∃ a, computed = .ok a ∧ f a = .ok b := by
  cases computed with
  | ok a => simp [bind, Except.bind]
  | error e => simp [bind, Except.bind]

theorem pure_eq_ok_iff {a b : α} : (pure a : Except ε α) = .ok b ↔ a = b :=
  ⟨Except.ok.inj, congrArg _⟩

theorem map_eq_ok_iff {computed : Except ε α} {f : α → β} {b : β} :
    f <$> computed = .ok b ↔ ∃ a, computed = .ok a ∧ f a = b := by
  cases computed with
  | ok a => simp [Functor.map, Except.map]
  | error e => simp [Functor.map, Except.map]

theorem forM_eq_ok_iff {check : α → Except ε Unit} {list : List α} :
    list.forM check = .ok () ↔ ∀ a ∈ list, check a = .ok () := by
  induction list with
  | nil => simp [pure, Except.pure]
  | cons head rest ih =>
      rw [List.forM_eq_forM, List.forM_cons, List.forall_mem_cons, ← ih]
      cases check head with
      | ok _ => simp [bind, Except.bind, List.forM_eq_forM]
      | error _ => simp [bind, Except.bind]

theorem mapM_eq_ok_iff {f : α → Except ε β} {as : List α} {bs : List β} :
    as.mapM f = .ok bs ↔ List.Forall₂ (fun a b => f a = .ok b) as bs := by
  induction as generalizing bs with
  | nil =>
      rw [List.mapM_nil, pure_eq_ok_iff, List.forall₂_nil_left_iff, eq_comm]
  | cons a as ih =>
      simp only [List.mapM_cons, bind_eq_ok_iff, pure_eq_ok_iff, ih, List.forall₂_cons_left_iff]
      constructor
      · rintro ⟨b, hb, rest, hrest, rfl⟩
        exact ⟨b, rest, hb, hrest, rfl⟩
      · rintro ⟨b, rest, hb, hrest, rfl⟩
        exact ⟨b, hb, rest, hrest, rfl⟩

/-- Parts in groups are computed group by group. -/
theorem mapM_flatMap (f : α → List β) (g : β → Except ε γ) (as : List α) :
    (as.flatMap f).mapM g = (as.mapM fun a => (f a).mapM g) >>= fun groups => pure groups.flatten := by
  induction as with
  | nil => rfl
  | cons a as ih => simp [List.mapM_append, ih]

theorem exists_of_mem_forall₂ {R : α → β → Prop} {as : List α} {bs : List β} (h : List.Forall₂ R as bs) {b : β}
    (mem : b ∈ bs) : ∃ a ∈ as, R a b := by
  induction h with
  | nil => cases mem
  | cons first _ ih =>
      rcases List.mem_cons.mp mem with rfl | mem
      · exact ⟨_, List.mem_cons_self, first⟩
      · obtain ⟨a, ha, hb⟩ := ih mem
        exact ⟨a, List.mem_cons_of_mem _ ha, hb⟩

/-- There are partners for all exactly if there is one for each. -/
theorem exists_forall₂_iff {R : α → β → Prop} {p : β → Prop} {as : List α} :
    (∃ bs, List.Forall₂ R as bs ∧ ∀ b ∈ bs, p b) ↔ ∀ a ∈ as, ∃ b, R a b ∧ p b := by
  induction as with
  | nil => simp
  | cons a as ih =>
      rw [List.forall_mem_cons, ← ih]
      constructor
      · rintro ⟨bs, hall, hp⟩
        cases hall with
        | cons hb hrest =>
            obtain ⟨hpb, hprest⟩ := List.forall_mem_cons.mp hp
            exact ⟨⟨_, hb, hpb⟩, _, hrest, hprest⟩
      · rintro ⟨⟨b, hb, hpb⟩, bs, hrest, hprest⟩
        exact ⟨b :: bs, .cons hb hrest, List.forall_mem_cons.mpr ⟨hpb, hprest⟩⟩

end LoadTest
