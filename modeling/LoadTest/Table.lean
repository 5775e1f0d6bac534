/-!
# LoadTest.Table

Values under text keys, in ascending order of the keys. **A key occurs once,** which the type says by
a proof, so two tables are equal as soon as their entries are.
-/

namespace LoadTest

/-- Values under distinct keys in ascending order. -/
@[ext] structure Table (α : Type) where
  entries : List (String × α)
  sorted : entries.Pairwise (fun a b => a.1 < b.1) := by exact List.Pairwise.nil

namespace Table

variable {α β : Type}

/-- The table without entries. -/
def empty : Table α := ⟨[], List.Pairwise.nil⟩

instance : Inhabited (Table α) := ⟨empty⟩

/-- The keys in order. -/
def keys (t : Table α) : List String := t.entries.map (·.1)

/-- The value under a key. -/
def find? (t : Table α) (key : String) : Option α :=
  (t.entries.find? fun entry => entry.1 == key).map (·.2)

/-- Whether a key has a value. -/
def contains (t : Table α) (key : String) : Bool := (t.find? key).isSome

/-- Puts an entry where it belongs; an older value of the key is replaced. -/
def insertEntry (key : String) (value : α) : List (String × α) → List (String × α)
  | [] => [(key, value)]
  | entry :: rest =>
      if key < entry.1 then (key, value) :: entry :: rest
      else if entry.1 < key then entry :: insertEntry key value rest
      else (key, value) :: rest

theorem mem_insertEntry {key : String} {value : α} {entries : List (String × α)}
    {entry : String × α} (h : entry ∈ insertEntry key value entries) :
    entry = (key, value) ∨ entry ∈ entries := by
  induction entries with
  | nil => simpa [insertEntry] using h
  | cons head rest ih =>
      simp only [insertEntry] at h
      split at h
      · simpa using h
      · split at h
        · rcases List.mem_cons.1 h with h | h
          · exact .inr (List.mem_cons.2 (.inl h))
          · exact (ih h).imp id (List.mem_cons_of_mem _)
        · rcases List.mem_cons.1 h with h | h
          · exact .inl h
          · exact .inr (List.mem_cons_of_mem _ h)

theorem sorted_insertEntry (key : String) (value : α) {entries : List (String × α)}
    (h : entries.Pairwise (fun a b => a.1 < b.1)) :
    (insertEntry key value entries).Pairwise (fun a b => a.1 < b.1) := by
  induction entries with
  | nil => simp [insertEntry]
  | cons head rest ih =>
      have hrest := (List.pairwise_cons.1 h).2
      have hhead := (List.pairwise_cons.1 h).1
      simp only [insertEntry]
      split
      · next hlt =>
        refine List.pairwise_cons.2 ⟨fun entry hentry => ?_, h⟩
        rcases List.mem_cons.1 hentry with rfl | hentry
        · exact hlt
        · exact String.lt_trans hlt (hhead entry hentry)
      · next hge =>
        split
        · next hlt =>
          refine List.pairwise_cons.2 ⟨fun entry hentry => ?_, ih hrest⟩
          rcases mem_insertEntry hentry with rfl | hentry
          · exact hlt
          · exact hhead entry hentry
        · next hle =>
          have heq : key = head.1 := String.le_antisymm (String.not_lt.1 hle) (String.not_lt.1 hge)
          exact List.pairwise_cons.2 ⟨fun entry hentry => heq ▸ hhead entry hentry, hrest⟩

/-- The table with a value under a key. -/
def insert (t : Table α) (key : String) (value : α) : Table α :=
  ⟨insertEntry key value t.entries, sorted_insertEntry key value t.sorted⟩

/-- The table of entries, the last one of a key winning. -/
def ofList (entries : List (String × α)) : Table α :=
  entries.foldl (fun t entry => t.insert entry.1 entry.2) empty

/-- Applies a function to every value. -/
def map (f : α → β) (t : Table α) : Table β :=
  ⟨t.entries.map fun entry => (entry.1, f entry.2), by
    simpa [List.pairwise_map] using t.sorted⟩

/-- Applies a function to the value under one key; without such a value nothing changes. -/
def modify (t : Table α) (key : String) (f : α → α) : Table α :=
  ⟨t.entries.map fun entry => (entry.1, if entry.1 == key then f entry.2 else entry.2), by
    simpa [List.pairwise_map] using t.sorted⟩

theorem pairwise_zip {keys : List String} {values : List β} (h : keys.Pairwise (· < ·)) :
    (keys.zip values).Pairwise (fun a b => a.1 < b.1) := by
  induction keys generalizing values with
  | nil => simp
  | cons key keys ih =>
      cases values with
      | nil => simp
      | cons value values =>
          have hkeys := List.pairwise_cons.1 h
          exact List.pairwise_cons.2
            ⟨fun entry hentry => hkeys.1 entry.1 (List.of_mem_zip hentry).1, ih hkeys.2⟩

/-- Applies a function that may fail to every value. -/
def mapM? (f : α → Option β) (t : Table α) : Option (Table β) :=
  (t.entries.mapM fun entry => f entry.2).map fun values =>
    ⟨t.keys.zip values, pairwise_zip (List.pairwise_map.2 t.sorted)⟩

end Table

end LoadTest
