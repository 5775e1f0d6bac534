import LoadTest.Table
import Mathlib.Data.List.Basic

/-!
# LoadTest.Proofs.Table

What is found in a table after each operation on it. **A look-up sees only the entry of its own key,** so
operations on other keys drop out of every later statement.
-/

namespace LoadTest.Table

variable {α β : Type} {t : Table α} {key other : String}

@[simp] theorem find?_empty : (empty : Table α).find? key = none := rfl

@[simp] theorem contains_eq (t : Table α) (key : String) :
    t.contains key = (t.find? key).isSome := rfl

/-- A key has a value if it is one of the keys. -/
theorem isSome_find?_iff : (t.find? key).isSome = true ↔ key ∈ t.keys := by
  rw [find?, Option.isSome_map, List.find?_isSome, keys, List.mem_map]
  simp

theorem find?_entries_map (key : String) (f : String → α → β) (entries : List (String × α)) :
    ((entries.map fun entry => (entry.1, f entry.1 entry.2)).find? fun entry => entry.1 == key).map (·.2)
      = ((entries.find? fun entry => entry.1 == key).map (·.2)).map (f key) := by
  induction entries with
  | nil => rfl
  | cons entry rest ih =>
      by_cases hkey : entry.1 = key
      · simp [hkey]
      · simpa [List.find?_cons_of_neg, hkey] using ih

@[simp] theorem find?_map (f : α → β) (t : Table α) : (t.map f).find? key = (t.find? key).map f :=
  find?_entries_map key (fun _ => f) t.entries

/-- A change of the value under one key is seen under that key alone. -/
theorem find?_modify (t : Table α) (changed : String) (f : α → α) :
    (t.modify changed f).find? key
      = (t.find? key).map fun value => if key = changed then f value else value := by
  have h := find?_entries_map key (fun k value => if k == changed then f value else value)
    t.entries
  simpa [find?, modify] using h

@[simp] theorem find?_modify_self (t : Table α) (f : α → α) :
    (t.modify key f).find? key = (t.find? key).map f := by
  simp [find?_modify]

theorem find?_modify_of_ne (t : Table α) (f : α → α) (h : key ≠ other) :
    (t.modify other f).find? key = t.find? key := by
  simp [find?_modify, h]

theorem length_of_mapM {γ δ : Type} {f : γ → Option δ} {list : List γ} {values : List δ}
    (h : list.mapM f = some values) : values.length = list.length := by
  induction list generalizing values with
  | nil =>
      obtain rfl : [] = values := by simpa using h
      rfl
  | cons head rest ih =>
      rw [List.mapM_cons] at h
      obtain ⟨value, -, h⟩ := Option.bind_eq_some_iff.mp h
      obtain ⟨others, hothers, h⟩ := Option.bind_eq_some_iff.mp h
      cases h
      rw [List.length_cons, List.length_cons, ih hothers]

theorem mem_of_mapM {γ δ : Type} {f : γ → Option δ} {list : List γ} {values : List δ} {value : δ}
    (h : list.mapM f = some values) (mem : value ∈ values) : ∃ a ∈ list, f a = some value := by
  induction list generalizing values with
  | nil =>
      cases h
      cases mem
  | cons head rest ih =>
      rw [List.mapM_cons] at h
      obtain ⟨first, hfirst, h⟩ := Option.bind_eq_some_iff.mp h
      obtain ⟨others, hothers, h⟩ := Option.bind_eq_some_iff.mp h
      cases h
      rcases List.mem_cons.mp mem with rfl | mem
      · exact ⟨head, List.mem_cons_self, hfirst⟩
      · obtain ⟨a, ha, hvalue⟩ := ih hothers mem
        exact ⟨a, List.mem_cons_of_mem _ ha, hvalue⟩

/-- A function that may fail is applied to every value or to none. -/
theorem keys_of_mapM? {f : α → Option β} {mapped : Table β} (h : t.mapM? f = some mapped) :
    mapped.keys = t.keys := by
  obtain ⟨values, hvalues, rfl⟩ := Option.map_eq_some_iff.mp h
  have hlength := length_of_mapM hvalues
  rw [keys, List.map_fst_zip]
  simp [keys, hlength]

theorem find?_zip_of_mapM {f : α → Option β} {entries : List (String × α)} {values : List β}
    (h : (entries.mapM fun entry => f entry.2) = some values) :
    (((entries.map (·.1)).zip values).find? fun entry => entry.1 == key).map (·.2)
      = ((entries.find? fun entry => entry.1 == key).map (·.2)).bind f := by
  induction entries generalizing values with
  | nil =>
      obtain rfl : [] = values := by simpa using h
      rfl
  | cons head rest ih =>
      rw [List.mapM_cons] at h
      obtain ⟨value, hvalue, h⟩ := Option.bind_eq_some_iff.mp h
      obtain ⟨others, hothers, h⟩ := Option.bind_eq_some_iff.mp h
      cases h
      by_cases hkey : head.1 = key
      · simp [hkey, hvalue]
      · simpa [List.find?_cons_of_neg, hkey] using ih hothers

/-- What is found after a function was applied to every value. -/
theorem find?_of_mapM? {f : α → Option β} {mapped : Table β} (h : t.mapM? f = some mapped)
    (key : String) : mapped.find? key = (t.find? key).bind f := by
  obtain ⟨values, hvalues, rfl⟩ := Option.map_eq_some_iff.mp h
  exact find?_zip_of_mapM hvalues

theorem isSome_mapM_iff {γ δ : Type} {f : γ → Option δ} {list : List γ} :
    (list.mapM f).isSome = true ↔ ∀ a ∈ list, (f a).isSome = true := by
  induction list with
  | nil => simp
  | cons head rest ih =>
      rw [List.mapM_cons, List.forall_mem_cons, ← ih]
      cases f head with
      | none => simp
      | some value => cases rest.mapM f <;> simp

/-! ### Equality -/

/-- What is found under a key is the one entry with that key. -/
theorem mem_entries_iff {value : α} : (key, value) ∈ t.entries ↔ t.find? key = some value := by
  obtain ⟨entries, hsorted⟩ := t
  simp only [find?]
  induction entries with
  | nil => simp
  | cons head rest ih =>
      obtain ⟨hhead, hrest⟩ := List.pairwise_cons.mp hsorted
      rw [List.mem_cons, ih hrest]
      by_cases hkey : head.1 = key
      · -- Every key of the rest is greater.
        have hnone : rest.find? (fun entry => entry.1 == key) = none := by
          refine List.find?_eq_none.mpr fun entry mem heq => ?_
          have hless := hhead entry mem
          rw [hkey, beq_iff_eq.mp heq] at hless
          exact String.lt_irrefl key hless
        rw [hnone, List.find?_cons_of_pos (by simpa using hkey)]
        obtain ⟨name, found⟩ := head
        obtain rfl : name = key := hkey
        simp [eq_comm]
      · rw [List.find?_cons_of_neg (by simpa using hkey)]
        refine or_iff_right_of_imp fun heq => ?_
        rw [← heq] at hkey
        exact absurd rfl hkey

theorem nodup_keys (t : Table α) : t.keys.Nodup := by
  refine List.pairwise_map.mpr (t.sorted.imp fun {a b} hless heq => ?_)
  rw [heq] at hless
  exact String.lt_irrefl b.1 hless

theorem nodup_entries (t : Table α) : t.entries.Nodup :=
  List.Pairwise.imp (fun hne heq => hne (congrArg Prod.fst heq)) (List.pairwise_map.mp t.nodup_keys)

/-- **Tables in which the same is found are equal.** -/
theorem ext_find? {other : Table α} (same : ∀ key, t.find? key = other.find? key) : t = other := by
  have hmem : ∀ entry, entry ∈ t.entries ↔ entry ∈ other.entries := by
    rintro ⟨key, value⟩
    rw [mem_entries_iff, mem_entries_iff, same key]
  have hperm := (List.perm_ext_iff_of_nodup t.nodup_entries other.nodup_entries).mpr hmem
  refine Table.ext (hperm.eq_of_pairwise ?_ t.sorted other.sorted)
  intro a b _ _ hless hgreater
  exact absurd (String.lt_trans hless hgreater) (String.lt_irrefl _)

theorem isSome_mapM?_iff {f : α → Option β} :
    (t.mapM? f).isSome = true ↔ ∀ key value, t.find? key = some value → (f value).isSome = true := by
  rw [mapM?, Option.isSome_map, isSome_mapM_iff]
  constructor
  · intro each key value found
    exact each (key, value) (mem_entries_iff.mpr found)
  · rintro each ⟨key, value⟩ mem
    exact each key value (mem_entries_iff.mp mem)

/-- A function that fails for no value of the table. -/
theorem mapM?_eq_some {f : α → Option β} {g : α → β} (each : ∀ entry ∈ t.entries, f entry.2 = some (g entry.2)) :
    t.mapM? f = some (t.map g) := by
  have hsome : (t.mapM? f).isSome = true := by
    rw [mapM?, Option.isSome_map, isSome_mapM_iff]
    intro entry mem
    rw [each entry mem]
    rfl
  obtain ⟨mapped, hmapped⟩ := Option.isSome_iff_exists.mp hsome
  rw [hmapped]
  refine congrArg some (ext_find? fun key => ?_)
  rw [find?_of_mapM? hmapped, find?_map]
  cases hfound : t.find? key with
  | none => rfl
  | some value => exact each (key, value) (mem_entries_iff.mpr hfound)

/-- A function before one that may fail. -/
theorem mapM?_map {γ : Type} (g : α → β) (f : β → Option γ) (t : Table α) :
    (t.map g).mapM? f = t.mapM? fun value => f (g value) := by
  simp [mapM?, map, keys, List.mapM_map, Function.comp_def]

/-! ### Insertion -/

/-- An entry put into a list is found under its key, and hides nothing under another. -/
theorem find?_insertEntry (inserted : String) (value : α) (entries : List (String × α)) :
    ((insertEntry inserted value entries).find? fun entry => entry.1 == key).map (·.2)
      = if key = inserted then some value
        else (entries.find? fun entry => entry.1 == key).map (·.2) := by
  induction entries with
  | nil =>
      by_cases hkey : key = inserted
      · simp [insertEntry, hkey]
      · simp [insertEntry, hkey, Ne.symm hkey]
  | cons head rest ih =>
      unfold insertEntry
      split
      · by_cases hkey : key = inserted
        · simp [hkey]
        · simp [List.find?_cons_of_neg, hkey, Ne.symm hkey]
      · next hge =>
        split
        · next hlt =>
          by_cases hhead : head.1 = key
          · have hne : key ≠ inserted := fun h => String.lt_irrefl key (by rwa [← h, hhead] at hlt)
            simp [hhead, hne]
          · simpa [List.find?_cons_of_neg, hhead] using ih
        · next hle =>
          have heq : inserted = head.1 :=
            String.le_antisymm (String.not_lt.1 hle) (String.not_lt.1 hge)
          by_cases hkey : key = inserted
          · simp [hkey]
          · have hhead : head.1 ≠ key := fun h => hkey (h.symm.trans heq.symm)
            simp [List.find?_cons_of_neg, hkey, hhead, Ne.symm hkey]

theorem find?_insert (t : Table α) (inserted : String) (value : α) :
    (t.insert inserted value).find? key = if key = inserted then some value else t.find? key :=
  find?_insertEntry inserted value t.entries

/-- Entries with distinct keys that are put into a table replace those of the same keys. -/
theorem find?_foldl_insert {entries : List (String × α)} (distinct : (entries.map (·.1)).Nodup) (t : Table α) :
    (entries.foldl (fun t entry => t.insert entry.1 entry.2) t).find? key
      = ((entries.find? fun entry => entry.1 == key).map (·.2)).or (t.find? key) := by
  induction entries generalizing t with
  | nil => rfl
  | cons head rest ih =>
      rw [List.map_cons, List.nodup_cons] at distinct
      rw [List.foldl_cons, ih distinct.2, find?_insert]
      by_cases hkey : head.1 = key
      · have hrest : rest.find? (fun entry => entry.1 == key) = none :=
          List.find?_eq_none.mpr fun entry mem => by
            have hne : entry.1 ≠ key := fun h =>
              distinct.1 (List.mem_map.mpr ⟨entry, mem, h.trans hkey.symm⟩)
            simpa using hne
        simp [hrest, hkey]
      · simp [hkey, Ne.symm hkey]

/-- An entry under a new key is one more. -/
theorem insertEntry_perm {value : α} {entries : List (String × α)} (fresh : key ∉ entries.map (·.1)) :
    (insertEntry key value entries).Perm ((key, value) :: entries) := by
  induction entries with
  | nil => rfl
  | cons head rest ih =>
      obtain ⟨hne, hrest⟩ := not_or.mp (mt List.mem_cons.mpr fresh)
      unfold insertEntry
      split
      · rfl
      · next hge =>
        split
        · exact (List.Perm.cons head (ih hrest)).trans (List.Perm.swap ..)
        · next hle =>
          exact absurd (String.le_antisymm (String.not_lt.1 hle) (String.not_lt.1 hge)) hne

theorem keys_insert_perm {value : α} (fresh : key ∉ t.keys) :
    (t.insert key value).keys.Perm (key :: t.keys) :=
  (insertEntry_perm fresh).map Prod.fst

theorem entries_foldl_insert_perm {entries : List (String × α)}
    (distinct : (t.keys ++ entries.map (·.1)).Nodup) :
    (entries.foldl (fun t entry => t.insert entry.1 entry.2) t).entries.Perm (t.entries ++ entries) := by
  induction entries generalizing t with
  | nil => simp
  | cons entry rest ih =>
      have hfresh : entry.1 ∉ t.keys := fun hmem =>
        (List.nodup_append.mp distinct).2.2 entry.1 hmem entry.1 List.mem_cons_self rfl
      have hinsert : (t.insert entry.1 entry.2).entries.Perm (entry :: t.entries) :=
        insertEntry_perm hfresh
      have hmiddle : (t.keys ++ (entry :: rest).map (·.1)).Perm
          (entry.1 :: (t.keys ++ rest.map (·.1))) := List.perm_middle
      refine (ih ?_).trans ((hinsert.append_right rest).trans List.perm_middle.symm)
      exact ((keys_insert_perm hfresh).append_right _).nodup_iff.mpr (hmiddle.nodup_iff.mp distinct)

/-- Entries under different keys are those of their table. -/
theorem entries_ofList_perm {entries : List (String × α)} (distinct : (entries.map (·.1)).Nodup) :
    (ofList entries).entries.Perm entries :=
  entries_foldl_insert_perm (t := empty) distinct

theorem mem_ofList {entries : List (String × α)} {entry : String × α} (mem : entry ∈ (ofList entries).entries) :
    entry ∈ entries := by
  have hfold : ∀ (entries : List (String × α)) (t : Table α),
      entry ∈ (entries.foldl (fun t entry => t.insert entry.1 entry.2) t).entries →
        entry ∈ t.entries ∨ entry ∈ entries := by
    intro entries
    induction entries with
    | nil => exact fun t mem => .inl mem
    | cons head rest ih =>
        intro t mem
        rcases ih (t.insert head.1 head.2) mem with mem | mem
        · rcases mem_insertEntry mem with rfl | mem
          · exact .inr List.mem_cons_self
          · exact .inl mem
        · exact .inr (List.mem_cons_of_mem _ mem)
  exact (hfold entries empty mem).resolve_left (by simp [empty])

/-- A table is the table of its entries. -/
theorem ofList_entries (t : Table α) : ofList t.entries = t := by
  refine ext_find? fun key => Option.ext fun value => ?_
  rw [← Option.mem_def, Option.mem_def, ← mem_entries_iff, ← mem_entries_iff]
  exact (entries_ofList_perm t.nodup_keys).mem_iff

end LoadTest.Table
