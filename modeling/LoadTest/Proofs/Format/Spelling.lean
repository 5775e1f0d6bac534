import LoadTest.Format.Source
import LoadTest.Proofs.Table
import Mathlib.Data.List.Nodup
import Mathlib.Data.List.Pairwise

/-!
# LoadTest.Proofs.Format.Spelling

Records by the keys of their members, in any data format. **A record is made of members exactly if no two of them
name one field, and has the value of the one that does** (`Record.ofMembers?_eq_some_iff`), in whichever spelling.
So members may take another spelling, be left out where they have no value, and have members of no field beside
them: `Respelt` is one such change, and what it does to the record is that a value may be gone that was none
(`Respelt.exists_shifts`).
-/

namespace LoadTest.Format

variable {σ τ α : Type}

/-! ### Keys of fields -/

namespace Field

/-- The keys that name a field. -/
def spellings (field : Field) : List String := field.name :: field.aliases

theorem isNamed_iff {field : Field} {key : String} : field.isNamed key = true ↔ key ∈ field.spellings := by
  rw [isNamed, spellings, Bool.or_eq_true, beq_iff_eq, List.contains_iff_mem, List.mem_cons, eq_comm]

theorem isNamed_name (field : Field) : field.isNamed field.name = true :=
  isNamed_iff.mpr List.mem_cons_self

theorem isNamed_alias {field : Field} {key : String} (mem : key ∈ field.aliases) : field.isNamed key = true :=
  isNamed_iff.mpr (List.mem_cons_of_mem _ mem)

/-- The values under the keys that name a field. -/
def values (field : Field) (members : List (String × σ)) : List σ :=
  (members.filter fun member => field.isNamed member.1).map (·.2)

@[simp] theorem values_append (field : Field) (first second : List (String × σ)) :
    field.values (first ++ second) = field.values first ++ field.values second := by
  simp [values]

theorem values_cons (field : Field) (key : String) (value : σ) (members : List (String × σ)) :
    field.values ((key, value) :: members)
      = if field.isNamed key then value :: field.values members else field.values members := by
  cases h : field.isNamed key <;> simp [values, h]

theorem mem_values {field : Field} {key : String} {value : σ} {members : List (String × σ)}
    (named : field.isNamed key = true) (mem : (key, value) ∈ members) : value ∈ field.values members :=
  List.mem_map.mpr ⟨(key, value), List.mem_filter.mpr ⟨mem, named⟩, rfl⟩

/-- A field of one value at most has no other beside it. -/
theorem values_eq_nil_of_once {field : Field} {key : String} {value : σ} {before after : List (String × σ)}
    (named : field.isNamed key = true) (once : (field.values (before ++ (key, value) :: after)).length ≤ 1) :
    field.values before = [] ∧ field.values after = [] := by
  rw [values_append, values_cons, if_pos named, List.length_append, List.length_cons] at once
  exact ⟨List.eq_nil_of_length_eq_zero (by omega), List.eq_nil_of_length_eq_zero (by omega)⟩

end Field

/-- No key names two fields. -/
def Separate (fields : List Field) : Prop := (fields.flatMap Field.spellings).Nodup

instance (fields : List Field) : Decidable (Separate fields) :=
  inferInstanceAs (Decidable (List.Nodup _))

section

variable {fields : List Field}

theorem Separate.pairwise (separate : Separate fields) :
    fields.Pairwise fun a b => List.Disjoint a.spellings b.spellings :=
  (List.nodup_flatMap.mp separate).2

theorem Separate.eq_of_named (separate : Separate fields) {a b : Field} (ha : a ∈ fields) (hb : b ∈ fields)
    {key : String} (hkeyA : a.isNamed key = true) (hkeyB : b.isNamed key = true) : a = b := by
  by_contra hne
  have hsymm : Std.Symm fun a b : Field => List.Disjoint a.spellings b.spellings := ⟨fun _ _ h _ hb ha => h ha hb⟩
  have hdisjoint := separate.pairwise.forall ha hb hne
  exact hdisjoint (Field.isNamed_iff.mp hkeyA) (Field.isNamed_iff.mp hkeyB)

/-- The first field that a key names is the only one. -/
theorem Separate.findIdx?_eq_some_iff (separate : Separate fields) {field : Field} {i : Nat}
    (h : fields[i]? = some field) (key : String) :
    fields.findIdx? (·.isNamed key) = some i ↔ field.isNamed key = true := by
  obtain ⟨hi, rfl⟩ := List.getElem?_eq_some_iff.mp h
  rw [List.findIdx?_eq_some_iff_getElem]
  constructor
  · rintro ⟨_, hnamed, -⟩
    exact hnamed
  · intro hnamed
    refine ⟨hi, hnamed, fun j hj hearlier => ?_⟩
    have hdisjoint := List.pairwise_iff_getElem.mp separate.pairwise j i (by omega) hi hj
    exact hdisjoint (Field.isNamed_iff.mp hearlier) (Field.isNamed_iff.mp hnamed)

end

/-! ### Lists that are read item by item -/

/-- Whatever is read of one value is read of another. -/
def Keeps (read : σ → Option α) (value other : σ) : Prop := ∀ ⦃a : α⦄, read value = some a → read other = some a

theorem mapM_eq_some_map {f : σ → Option τ} {g : σ → τ} {list : List σ}
    (each : ∀ a ∈ list, f a = some (g a)) : list.mapM f = some (list.map g) := by
  induction list with
  | nil => rfl
  | cons head rest ih =>
      obtain ⟨hhead, hrest⟩ := List.forall_mem_cons.mp each
      rw [List.mapM_cons, hhead, ih hrest]
      rfl

theorem mapM_congr {f g : σ → Option τ} {list : List σ} (same : ∀ a ∈ list, f a = g a) :
    list.mapM f = list.mapM g := by
  induction list with
  | nil => rfl
  | cons head rest ih =>
      obtain ⟨hhead, hrest⟩ := List.forall_mem_cons.mp same
      rw [List.mapM_cons, List.mapM_cons, hhead, ih hrest]

theorem mapM_insert_eq_some_iff {f : σ → Option τ} {before after : List σ} {a : σ} {read : List τ} :
    (before ++ a :: after).mapM f = some read
      ↔ ∃ first b last, before.mapM f = some first ∧ f a = some b ∧ after.mapM f = some last
        ∧ read = first ++ b :: last := by
  rw [List.mapM_append, List.mapM_cons]
  constructor
  · intro h
    obtain ⟨first, hfirst, h⟩ := Option.bind_eq_some_iff.mp h
    obtain ⟨others, hothers, h⟩ := Option.bind_eq_some_iff.mp h
    obtain ⟨b, hb, hothers⟩ := Option.bind_eq_some_iff.mp hothers
    obtain ⟨last, hlast, hothers⟩ := Option.bind_eq_some_iff.mp hothers
    cases hothers
    cases h
    exact ⟨first, b, last, hfirst, hb, hlast, rfl⟩
  · rintro ⟨first, b, last, hfirst, hb, hlast, rfl⟩
    rw [hfirst, hb, hlast]
    rfl

/-- An item in place of another that is read as the same. -/
theorem Keeps.mapM {f : σ → Option τ} {a other : σ} (keeps : Keeps f a other) (before after : List σ) :
    Keeps (List.mapM f) (before ++ a :: after) (before ++ other :: after) := by
  intro read h
  obtain ⟨first, b, last, hfirst, hb, hlast, rfl⟩ := mapM_insert_eq_some_iff.mp h
  exact mapM_insert_eq_some_iff.mpr ⟨first, b, last, hfirst, keeps hb, hlast, rfl⟩

/-- Members whose keys are texts. -/
def texts (members : List (String × σ)) : List (Content × σ) :=
  members.map fun member => (Content.text member.1, member.2)

/-- The members with their values read. -/
def readValues? (read : σ → Option τ) (members : List (String × σ)) : Option (List (String × τ)) :=
  members.mapM fun member => (read member.2).map (Prod.mk member.1)

@[simp] theorem readValues?_nil {read : σ → Option τ} : readValues? read [] = some [] := rfl

theorem readValues?_cons (read : σ → Option τ) (key : String) (value : σ) (members : List (String × σ)) :
    readValues? read ((key, value) :: members)
      = (read value).bind fun content => (readValues? read members).map ((key, content) :: ·) := by
  rw [readValues?, List.mapM_cons]
  cases read value with
  | none => rfl
  | some content =>
      show (readValues? read members).bind _ = (readValues? read members).map _
      rw [Option.map_eq_bind]
      rfl

theorem mapM_texts (read : σ → Option τ) (members : List (String × σ)) :
    (texts members).mapM (fun (key, value) => (read value).map fun content => (key, content))
      = (readValues? read members).map texts := by
  induction members with
  | nil => rfl
  | cons member members ih =>
      have hcons : texts (member :: members) = (.text member.1, member.2) :: texts members := rfl
      rw [hcons, List.mapM_cons, ih, readValues?_cons]
      show ((read member.2).map _).bind _ = _
      cases read member.2 with
      | none => rfl
      | some content => cases readValues? read members <;> rfl

theorem readValues?_insert_eq_some_iff {read : σ → Option τ} {before after : List (String × σ)} {key : String}
    {value : σ} {found : List (String × τ)} :
    readValues? read (before ++ (key, value) :: after) = some found
      ↔ ∃ first content last, readValues? read before = some first ∧ read value = some content
        ∧ readValues? read after = some last ∧ found = first ++ (key, content) :: last := by
  refine mapM_insert_eq_some_iff.trans ?_
  constructor
  · rintro ⟨first, member, last, hfirst, hmember, hlast, rfl⟩
    obtain ⟨content, hcontent, rfl⟩ := Option.map_eq_some_iff.mp hmember
    exact ⟨first, content, last, hfirst, hcontent, hlast, rfl⟩
  · rintro ⟨first, content, last, hfirst, hcontent, hlast, rfl⟩
    exact ⟨first, (key, content), last, hfirst, Option.map_eq_some_iff.mpr ⟨content, hcontent, rfl⟩, hlast, rfl⟩

theorem Keeps.readValues? {read : σ → Option τ} {value other : σ} (keeps : Keeps read value other)
    (before after : List (String × σ)) (key : String) :
    Keeps (readValues? read) (before ++ (key, value) :: after) (before ++ (key, other) :: after) := by
  intro found h
  obtain ⟨first, content, last, hfirst, hcontent, hlast, rfl⟩ := readValues?_insert_eq_some_iff.mp h
  exact readValues?_insert_eq_some_iff.mpr ⟨first, content, last, hfirst, keeps hcontent, hlast, rfl⟩

theorem exists_mem_readValues? {read : σ → Option τ} {members : List (String × σ)} {found : List (String × τ)}
    (h : readValues? read members = some found) {key : String} {value : σ} (mem : (key, value) ∈ members) :
    ∃ content, (key, content) ∈ found := by
  obtain ⟨before, after, rfl⟩ := List.append_of_mem mem
  obtain ⟨first, content, last, -, -, -, rfl⟩ := readValues?_insert_eq_some_iff.mp h
  exact ⟨content, List.mem_append_right _ List.mem_cons_self⟩

theorem readValues?_append {read : σ → Option τ} {before after : List (String × σ)}
    {first last : List (String × τ)} (hfirst : readValues? read before = some first)
    (hlast : readValues? read after = some last) : readValues? read (before ++ after) = some (first ++ last) := by
  rw [readValues?] at hfirst hlast ⊢
  rw [List.mapM_append, hfirst, hlast]
  rfl

/-! ### Records of members -/

namespace Record

variable {fields : List Field} {members : List (String × σ)}

/-- The record with the first value of each field. -/
def gather (fields : List Field) (members : List (String × σ)) : Record σ :=
  ⟨false, fields.map fun field => (field.name, (field.values members).head?)⟩

theorem given?_gather (name : String) : (gather fields members).given? name
    = (fields.find? fun field => field.name == name).bind fun field => (field.values members).head? := by
  rw [given?, gather, List.find?_map, Option.bind_map]
  rfl

/-- What a record has of a field with some values: nothing or one of them, and it is no record if there are two. -/
def only? : List σ → Option (Option σ)
  | [] => some none
  | [value] => some (some value)
  | _ => none

theorem only?_eq_some_iff {values : List σ} {found : Option σ} :
    only? values = some found ↔ values.length ≤ 1 ∧ found = values.head? := by
  rcases values with _ | ⟨value, _ | ⟨second, rest⟩⟩ <;> simp [only?, eq_comm]

/-- The members found for a field by its position are those that name it. -/
theorem filter_position (separate : Separate fields) {field : Field} {i : Nat} (h : fields[i]? = some field) :
    (members.map fun member => (fields.findIdx? (·.isNamed member.1), member.2)).filter (fun found => found.1 == some i)
      = (members.filter fun member => field.isNamed member.1).map
        fun member => (fields.findIdx? (·.isNamed member.1), member.2) := by
  rw [List.filter_map]
  refine congrArg _ (List.filter_congr fun member _ => ?_)
  rw [Bool.eq_iff_iff]
  exact beq_iff_eq.trans (separate.findIdx?_eq_some_iff h member.1)

/-- Members are made a record field by field. -/
theorem ofMembers?_texts (separate : Separate fields) : ofMembers? fields (texts members)
    = (fields.mapM fun field => (only? (field.values members)).map (Prod.mk field.name)).map (Record.mk false) := by
  have hkeys : (texts members).mapM (fun (key, value) => (indexOf? fields key).map fun i => (i, value))
      = some (members.map fun member => (fields.findIdx? (·.isNamed member.1), member.2)) := by
    rw [texts, List.mapM_map]
    exact mapM_eq_some_map fun member _ => rfl
  have hfields : fields.mapM (fun field => (only? (field.values members)).map (Prod.mk field.name))
      = fields.zipIdx.mapM fun entry => (only? (entry.1.values members)).map (Prod.mk entry.1.name) := by
    conv_lhs => rw [← List.zipIdx_map_fst 0 fields]
    exact List.mapM_map
  rw [ofMembers?, hkeys, hfields, Option.map_eq_bind]
  refine congrArg (Option.bind · _) (mapM_congr fun entry mem => ?_)
  simp only [filter_position separate (List.mem_zipIdx_iff_getElem?.mp mem), Field.values]
  generalize members.filter (fun member => entry.1.isNamed member.1) = named
  rcases named with _ | ⟨member, _ | ⟨second, rest⟩⟩ <;> rfl

/-- **Members are a record if each field has at most one value,** which is then that of the record. -/
theorem ofMembers?_eq_some_iff (separate : Separate fields) {record : Record σ} :
    ofMembers? fields (texts members) = some record
      ↔ (∀ field ∈ fields, (field.values members).length ≤ 1) ∧ record = gather fields members := by
  have hgather (once : ∀ field ∈ fields, (field.values members).length ≤ 1) :
      fields.mapM (fun field => (only? (field.values members)).map (Prod.mk field.name))
        = some (fields.map fun field => (field.name, (field.values members).head?)) :=
    mapM_eq_some_map fun field mem => by
      rw [only?_eq_some_iff.mpr ⟨once field mem, rfl⟩]
      rfl
  rw [ofMembers?_texts separate, Option.map_eq_some_iff]
  constructor
  · rintro ⟨values, hvalues, rfl⟩
    have once : ∀ field ∈ fields, (field.values members).length ≤ 1 := by
      intro field mem
      have hsome := Table.isSome_mapM_iff.mp (Option.isSome_of_eq_some hvalues) field mem
      rw [Option.isSome_map] at hsome
      obtain ⟨found, hfound⟩ := Option.isSome_iff_exists.mp hsome
      exact (only?_eq_some_iff.mp hfound).1
    rw [hgather once] at hvalues
    cases hvalues
    exact ⟨once, rfl⟩
  · rintro ⟨once, rfl⟩
    exact ⟨_, hgather once, rfl⟩

/-- The value of a field is under any key that names it. -/
theorem given?_of_mem (separate : Separate fields) {record : Record σ}
    (h : ofMembers? fields (texts members) = some record) {field : Field} (mem : field ∈ fields) {key : String}
    (named : field.isNamed key = true) {value : σ} (hvalue : (key, value) ∈ members) :
    record.given? field.name = some value := by
  obtain ⟨once, rfl⟩ := (ofMembers?_eq_some_iff separate).mp h
  have hfind : (fields.find? fun other => other.name == field.name) = some field := by
    obtain ⟨other, hother⟩ := Option.isSome_iff_exists.mp
      (List.find?_isSome.mpr ⟨field, mem, beq_self_eq_true field.name⟩ :
        (fields.find? fun other => other.name == field.name).isSome = true)
    have hname : other.name = field.name := by simpa using List.find?_some hother
    rw [hother, separate.eq_of_named (List.mem_of_find?_eq_some hother) mem other.isNamed_name
      (hname ▸ field.isNamed_name)]
  obtain ⟨before, after, rfl⟩ := List.append_of_mem hvalue
  obtain ⟨hbefore, -⟩ := Field.values_eq_nil_of_once named (once field mem)
  rw [given?_gather, hfind, Option.bind_some, Field.values_append, Field.values_cons, if_pos named, hbefore]
  rfl

end Record

/-! ### Members of no field, and two of one -/

section

variable {fields : List Field}

/-- A member that names no field is skipped. -/
theorem ofMembers?_of_unnamed (separate : Separate fields) {key : String}
    (unnamed : ∀ field ∈ fields, key ∉ field.spellings) (before after : List (String × σ)) (value : σ) :
    Record.ofMembers? fields (texts (before ++ (key, value) :: after))
      = Record.ofMembers? fields (texts (before ++ after)) := by
  rw [Record.ofMembers?_texts separate, Record.ofMembers?_texts separate]
  refine congrArg (Option.map _) (mapM_congr fun field mem => ?_)
  have hnot : ¬ field.isNamed key = true := mt Field.isNamed_iff.mp (unnamed field mem)
  rw [Field.values_append, Field.values_cons, if_neg hnot, ← Field.values_append]

/-- Members under two spellings of one field are no record. -/
theorem ofMembers?_of_twice (separate : Separate fields) {field : Field} (mem : field ∈ fields) {spelling : String}
    (other : spelling ∈ field.aliases) {members : List (String × σ)} {value second : σ}
    (hname : (field.name, value) ∈ members) (hspelling : (spelling, second) ∈ members) :
    Record.ofMembers? fields (texts members) = none := by
  refine Option.eq_none_iff_forall_not_mem.mpr fun record hrecord => ?_
  have once := ((Record.ofMembers?_eq_some_iff separate).mp hrecord).1 field mem
  obtain ⟨before, after, rfl⟩ := List.append_of_mem hname
  obtain ⟨hbefore, hafter⟩ := Field.values_eq_nil_of_once field.isNamed_name once
  -- The second member is another one, since its key is.
  have hne : spelling ≠ field.name := fun heq =>
    (List.nodup_cons.mp ((List.nodup_flatMap.mp separate).1 field mem)).1 (heq ▸ other)
  have hnamed := Field.isNamed_alias other
  rcases List.mem_append.mp hspelling with h | h
  · exact absurd (Field.mem_values hnamed h) (hbefore ▸ List.not_mem_nil)
  · rcases List.mem_cons.mp h with h | h
    · exact hne (congrArg Prod.fst h)
    · exact absurd (Field.mem_values hnamed h) (hafter ▸ List.not_mem_nil)

end

/-! ### Members under the names of fields -/

theorem filter_eq_lookup {members : List (String × σ)} (distinct : (members.map (·.1)).Nodup) (name : String) :
    members.filter (·.1 == name) = ((members.lookup name).map fun value => (name, value)).toList := by
  induction members with
  | nil => rfl
  | cons member rest ih =>
      obtain ⟨key, value⟩ := member
      obtain ⟨hfresh, hrest⟩ := List.nodup_cons.mp distinct
      by_cases h : key = name
      · subst h
        have hnone : rest.filter (·.1 == key) = [] :=
          List.filter_eq_nil_iff.mpr fun other hother heq =>
            hfresh (List.mem_map.mpr ⟨other, hother, beq_iff_eq.mp heq⟩)
        simp [hnone]
      · have hne : (name == key) = false := beq_false_of_ne (Ne.symm h)
        simp [h, hne, List.lookup_cons, ih hrest]

/-- The record of some members for the fields of some names. -/
def recordOf (names : List String) (members : List (String × σ)) : Record σ :=
  ⟨false, names.map fun name => (name, members.lookup name)⟩

section

variable {fields : List Field} {names : List String} {members : List (String × σ)} {name : String}

/-- **Members under different keys that are no other spellings are a record,** whatever their order. -/
theorem ofMembers?_of_plain (separate : Separate fields) (distinct : (members.map (·.1)).Nodup)
    (plain : ∀ field ∈ fields, ∀ member ∈ members, member.1 ∉ field.aliases) :
    Record.ofMembers? fields (texts members) = some (recordOf (fields.map (·.name)) members) := by
  have hvalues : ∀ field ∈ fields, field.values members = (members.lookup field.name).toList := by
    intro field mem
    have hnamed : ∀ member ∈ members, field.isNamed member.1 = (member.1 == field.name) := by
      intro member hmember
      rw [Bool.eq_iff_iff, Field.isNamed_iff, Field.spellings, List.mem_cons, beq_iff_eq]
      exact or_iff_left (plain field mem member hmember)
    rw [Field.values, List.filter_congr hnamed, filter_eq_lookup distinct]
    cases members.lookup field.name <;> rfl
  refine (Record.ofMembers?_eq_some_iff separate).mpr ⟨fun field mem => ?_, ?_⟩
  · rw [hvalues field mem]
    cases members.lookup field.name <;> simp
  · rw [Record.gather, recordOf, List.map_map]
    refine congrArg (Record.mk false) (List.map_congr_left fun field mem => ?_)
    show (field.name, members.lookup field.name) = (field.name, (field.values members).head?)
    rw [hvalues field mem]
    cases members.lookup field.name <;> rfl

/-- A record that is written field by field. -/
theorem ofMembers?_of_names (separate : Separate fields) (named : members.map (·.1) = fields.map (·.name)) :
    Record.ofMembers? fields (texts members) = some (recordOf (fields.map (·.name)) members) := by
  obtain ⟨hspellings, hdisjoint⟩ := List.nodup_flatMap.mp separate
  have distinct : (fields.map (·.name)).Nodup :=
    List.pairwise_map.mpr (hdisjoint.imp fun {a b} h (heq : a.name = b.name) =>
      h (Field.isNamed_iff.mp a.isNamed_name) (heq ▸ Field.isNamed_iff.mp b.isNamed_name))
  refine ofMembers?_of_plain separate (named ▸ distinct) fun field mem member hmember halias => ?_
  obtain ⟨other, hother, hname⟩ : ∃ other ∈ fields, other.name = member.1 :=
    List.mem_map.mp (named ▸ List.mem_map_of_mem hmember)
  obtain rfl := separate.eq_of_named hother mem (hname ▸ other.isNamed_name) (Field.isNamed_alias halias)
  exact (List.nodup_cons.mp (hspellings other mem)).1 (hname ▸ halias)

/-- What is read of a map that is written field by field. -/
theorem bind_contents {contents : List (String × Content)} {read : Record Content → Option α} (separate : Separate fields)
    (named : contents.map (·.1) = fields.map (·.name)) :
    (Record.ofSource? fields (Content.map (texts contents))).bind read
      = read (recordOf (fields.map (·.name)) contents) := by
  show (Record.ofMembers? fields (texts contents)).bind read = _
  rw [ofMembers?_of_names separate named, Option.bind_some]

theorem given?_recordOf (mem : name ∈ names) : (recordOf names members).given? name = members.lookup name := by
  have hfind : (names.map fun name => (name, members.lookup name)).find? (fun entry => entry.1 == name)
      = some (name, members.lookup name) := by
    induction names with
    | nil => cases mem
    | cons head rest ih =>
        by_cases h : head = name
        · simp [h]
        · simpa [h] using ih ((List.mem_cons.mp mem).resolve_left (Ne.symm h))
  rw [Record.given?, recordOf, hfind]
  rfl

theorem required?_recordOf {read : σ → Option α} (mem : name ∈ names) :
    (recordOf names members).required? name read = (members.lookup name).bind read := by
  rw [Record.required?, given?_recordOf mem]

theorem withDefault?_recordOf {default : α} {read : σ → Option α} (mem : name ∈ names) :
    (recordOf names members).withDefault? name default read = (members.lookup name).elim (some default) read := by
  rw [Record.withDefault?, given?_recordOf mem]
  cases members.lookup name <;> rfl

theorem maybe?_recordOf [Source σ] {read : σ → Option α} (mem : name ∈ names) :
    (recordOf names members).maybe? name read = (members.lookup name).elim (some none) (optional? read) := by
  rw [Record.maybe?, given?_recordOf mem]
  cases members.lookup name <;> rfl

end

/-! ### Other spellings -/

/-- One change to the members of a record: the name of a field takes another spelling, a field whose value counts as
absent is left out, or the value of a field changes inside. -/
inductive Respelt [Source σ] (fields : List Field) (inside : String → σ → σ → Prop) :
    List (String × σ) → List (String × σ) → Prop where
  | renamed {before after : List (String × σ)} {field : Field} {spelling : String} {value : σ}
      (mem : field ∈ fields) (other : spelling ∈ field.aliases) :
      Respelt fields inside (before ++ (field.name, value) :: after) (before ++ (spelling, value) :: after)
  | omitted {before after : List (String × σ)} {field : Field} {key : String} {value : σ}
      (mem : field ∈ fields) (spelt : key ∈ field.spellings) (absent : absent? value = some true) :
      Respelt fields inside (before ++ (key, value) :: after) (before ++ after)
  | changed {before after : List (String × σ)} {field : Field} {key : String} {value other : σ}
      (mem : field ∈ fields) (spelt : key ∈ field.spellings) (change : inside field.name value other) :
      Respelt fields inside (before ++ (key, value) :: after) (before ++ (key, other) :: after)

/-- No value changes inside. -/
def Untouched : String → σ → σ → Prop := fun _ _ _ => False

/-- One change to the members of an object. -/
inductive ObjectRespelt [Source σ] (object : List (String × σ) → σ) (fields : List Field)
    (inside : String → σ → σ → Prop) : σ → σ → Prop where
  | members {members changed : List (String × σ)} (change : Respelt fields inside members changed) :
      ObjectRespelt object fields inside (object members) (object changed)

/-- Every value after a change was one before, if none changes inside. -/
theorem Respelt.forall_mem [Source σ] {fields : List Field} {members changed : List (String × σ)}
    (change : Respelt fields Untouched members changed) {p : σ → Prop} (h : ∀ member ∈ members, p member.2) :
    ∀ member ∈ changed, p member.2 := by
  cases change with
  | renamed => simpa only [List.forall_mem_append, List.forall_mem_cons] using h
  | omitted =>
      simp only [List.forall_mem_append, List.forall_mem_cons] at h ⊢
      exact ⟨h.1, h.2.2⟩
  | changed _ _ change => exact change.elim

/-- A change to members is one to their values when they are read, if absent ones are read as such. -/
theorem Respelt.exists_readValues? [Source σ] [Source τ] {fields : List Field} {inside : String → σ → σ → Prop}
    {within : String → τ → τ → Prop} {members changed : List (String × σ)} (change : Respelt fields inside members changed)
    {read : σ → Option τ} {contents : List (String × τ)} (h : readValues? read members = some contents)
    (absent : ∀ {value content}, read value = some content → absent? value = some true → absent? content = some true)
    (inner : ∀ {name value other content}, inside name value other → read value = some content →
      ∃ next, read other = some next ∧ within name content next) :
    ∃ next, readValues? read changed = some next ∧ Respelt fields within contents next := by
  cases change with
  | renamed mem other =>
      obtain ⟨first, content, last, hfirst, hcontent, hlast, rfl⟩ := readValues?_insert_eq_some_iff.mp h
      exact ⟨_, readValues?_insert_eq_some_iff.mpr ⟨first, content, last, hfirst, hcontent, hlast, rfl⟩,
        .renamed mem other⟩
  | omitted mem spelt hnone =>
      obtain ⟨first, content, last, hfirst, hcontent, hlast, rfl⟩ := readValues?_insert_eq_some_iff.mp h
      exact ⟨_, readValues?_append hfirst hlast, .omitted mem spelt (absent hcontent hnone)⟩
  | changed mem spelt change =>
      obtain ⟨first, content, last, hfirst, hcontent, hlast, rfl⟩ := readValues?_insert_eq_some_iff.mp h
      obtain ⟨next, hnext, hwithin⟩ := inner change hcontent
      exact ⟨_, readValues?_insert_eq_some_iff.mpr ⟨first, next, last, hfirst, hnext, hlast, rfl⟩,
        .changed mem spelt hwithin⟩

/-- Members of no field stay as they are, and the others change among themselves. -/
theorem Respelt.partition [Source σ] {fields : List Field} {inside : String → σ → σ → Prop}
    {members changed : List (String × σ)} (change : Respelt fields inside members changed) {key : String}
    (unnamed : ∀ field ∈ fields, key ∉ field.spellings) :
    changed.filter (·.1 == key) = members.filter (·.1 == key)
      ∧ Respelt fields inside (members.filter fun member => !(member.1 == key))
        (changed.filter fun member => !(member.1 == key)) := by
  have hother : ∀ {field other}, field ∈ fields → other ∈ field.spellings → (other == key) = false := by
    intro field other mem spelt
    refine beq_false_of_ne ?_
    rintro rfl
    exact unnamed field mem spelt
  cases change with
  | renamed mem other =>
      simp only [List.filter_append, List.filter_cons, hother mem List.mem_cons_self,
        hother mem (List.mem_cons_of_mem _ other), Bool.not_false, if_true, Bool.false_eq_true, if_false, true_and]
      exact .renamed mem other
  | omitted mem spelt absent =>
      simp only [List.filter_append, List.filter_cons, hother mem spelt, Bool.not_false, if_true, Bool.false_eq_true,
        if_false, true_and]
      exact .omitted mem spelt absent
  | changed mem spelt change =>
      simp only [List.filter_append, List.filter_cons, hother mem spelt, Bool.not_false, if_true, Bool.false_eq_true,
        if_false, true_and]
      exact .changed mem spelt change

/-- What was found for a field, and what is found for it after a change. -/
inductive Shift [Source σ] (inside : σ → σ → Prop) : Option σ → Option σ → Prop where
  | same (found : Option σ) : Shift inside found found
  | omitted {value : σ} (absent : absent? value = some true) : Shift inside (some value) none
  | changed {value other : σ} (change : inside value other) : Shift inside (some value) (some other)

section

variable [Source σ] {fields all : List Field} {inside : String → σ → σ → Prop} {members changed : List (String × σ)}

/-- A field that had one value at most has one at most, and the same unless the change was to it. -/
theorem Respelt.shift (change : Respelt fields inside members changed) (separate : Separate all) (among : fields ⊆ all)
    {field : Field} (mem : field ∈ all) (once : (field.values members).length ≤ 1) :
    (field.values changed).length ≤ 1
      ∧ Shift (inside field.name) (field.values members).head? (field.values changed).head? := by
  -- The change is to the members of one field, and these are the members of this field only if it is the same.
  have hfield : ∀ {other key}, other ∈ fields → other.isNamed key = true → field.isNamed key = true → field = other :=
    fun hother hkey hnamed => separate.eq_of_named mem (among hother) hnamed hkey
  cases change with
  | @renamed before after renamed spelling value hmem other =>
      have hsame : field.isNamed renamed.name = field.isNamed spelling := by
        rw [Bool.eq_iff_iff]
        constructor
        · intro hnamed
          rw [hfield hmem renamed.isNamed_name hnamed]
          exact Field.isNamed_alias other
        · intro hnamed
          rw [hfield hmem (Field.isNamed_alias other) hnamed]
          exact renamed.isNamed_name
      have hvalues : field.values (before ++ (spelling, value) :: after)
          = field.values (before ++ (renamed.name, value) :: after) := by
        simp only [Field.values_append, Field.values_cons, hsame]
      rw [hvalues]
      exact ⟨once, .same _⟩
  | @omitted before after _ key value _ _ absent =>
      cases hnamed : field.isNamed key with
      | true =>
          obtain ⟨hbefore, hafter⟩ := Field.values_eq_nil_of_once hnamed once
          simp only [Field.values_append, Field.values_cons, hnamed, if_true, hbefore, hafter, List.nil_append]
          exact ⟨Nat.zero_le 1, .omitted absent⟩
      | false =>
          simp only [Field.values_append, Field.values_cons, hnamed, Bool.false_eq_true, if_false] at once ⊢
          exact ⟨once, .same _⟩
  | @changed before after _ key value other hmem hspelt change =>
      cases hnamed : field.isNamed key with
      | true =>
          obtain ⟨hbefore, hafter⟩ := Field.values_eq_nil_of_once hnamed once
          rw [← hfield hmem (Field.isNamed_iff.mpr hspelt) hnamed] at change
          simp only [Field.values_append, Field.values_cons, hnamed, if_true, hbefore, hafter, List.nil_append]
          exact ⟨Nat.le_refl 1, .changed change⟩
      | false =>
          simp only [Field.values_append, Field.values_cons, hnamed, Bool.false_eq_true, if_false] at once ⊢
          exact ⟨once, .same _⟩

/-- Whatever comes of one step and then another comes of them still if it does of each. -/
theorem bind_keeps {β : Type} {x y : Option β} {f g : β → Option α} (first : ∀ ⦃b : β⦄, x = some b → y = some b)
    (second : ∀ (b : β) ⦃a : α⦄, f b = some a → g b = some a) {a : α} (h : x.bind f = some a) : y.bind g = some a := by
  obtain ⟨b, hb, h⟩ := Option.bind_eq_some_iff.mp h
  exact Option.bind_eq_some_iff.mpr ⟨b, first hb, second b h⟩

/-- What a change does to a record: each of its values is the same, or gone, or changed inside. -/
def Record.Shifts (inside : String → σ → σ → Prop) (record changed : Record σ) : Prop :=
  changed.row = false ∧ ∀ name, Shift (inside name) (record.given? name) (changed.given? name)

/-- **Members are a record still after a change,** and it has the same values, apart from one that counted as absent
or was changed inside. -/
theorem Respelt.exists_shifts (change : Respelt fields inside members changed) (separate : Separate all)
    (among : fields ⊆ all) {record : Record σ} (h : Record.ofMembers? all (texts members) = some record) :
    ∃ next, Record.ofMembers? all (texts changed) = some next ∧ record.Shifts inside next := by
  obtain ⟨once, rfl⟩ := (Record.ofMembers?_eq_some_iff separate).mp h
  refine ⟨Record.gather all changed, (Record.ofMembers?_eq_some_iff separate).mpr
    ⟨fun field mem => (change.shift separate among mem (once field mem)).1, rfl⟩, rfl, fun name => ?_⟩
  rw [Record.given?_gather, Record.given?_gather]
  cases hfind : all.find? fun field => field.name == name with
  | none => exact .same none
  | some field =>
      have hmem := List.mem_of_find?_eq_some hfind
      obtain rfl : field.name = name := by simpa using List.find?_some hfind
      exact (change.shift separate among hmem (once field hmem)).2

theorem Keeps.optional? {read : σ → Option α} {value other : σ} (keeps : Keeps read value other)
    (same : absent? other = absent? value) : Keeps (optional? read) value other := by
  intro found h
  rw [Format.optional?, same]
  obtain ⟨absent, habsent, h⟩ := Option.bind_eq_some_iff.mp h
  rw [habsent, Option.bind_some]
  cases absent with
  | true => exact h
  | false =>
      obtain ⟨a, ha, rfl⟩ := Option.map_eq_some_iff.mp h
      exact Option.map_eq_some_iff.mpr ⟨a, keeps ha, rfl⟩

theorem optional?_of_absent {read : σ → Option α} {value : σ} (absent : absent? value = some true) :
    optional? read value = some none := by
  rw [optional?, absent]
  rfl

namespace Record.Shifts

variable {record next : Record σ} {name : String} {read : σ → Option α}

/-- A value that counts as absent is read as none, and so is none at all. -/
theorem maybe? (shifts : record.Shifts inside next)
    (keeps : ∀ {value other}, inside name value other → Keeps (optional? read) value other)
    {found : Option α} (h : record.maybe? name read = some found) : next.maybe? name read = some found := by
  obtain ⟨hrow, hshift⟩ := shifts
  replace hshift := hshift name
  unfold Record.maybe? at h ⊢
  generalize record.given? name = before at h hshift
  generalize next.given? name = after at hshift ⊢
  cases hshift with
  | same =>
      cases before with
      | some value => exact h
      | none =>
          rw [hrow]
          replace h : (if record.row = true then none else some none) = some found := h
          split at h
          · cases h
          · exact h
  | omitted absent =>
      rw [hrow]
      exact (optional?_of_absent absent).symm.trans h
  | changed change => exact keeps change h

theorem withDefault? (shifts : record.Shifts inside next)
    (keeps : ∀ {value other}, inside name value other → Keeps (optional? read) value other)
    {found : Option α} (h : record.withDefault? name none (optional? read) = some found) :
    next.withDefault? name none (optional? read) = some found := by
  replace shifts := shifts.2 name
  unfold Record.withDefault? at h ⊢
  generalize record.given? name = before at h shifts
  generalize next.given? name = after at shifts ⊢
  cases shifts with
  | same => exact h
  | omitted absent => exact (optional?_of_absent absent).symm.trans h
  | changed change => exact keeps change h

/-- A value that has to be there is not left out. -/
theorem required? (shifts : record.Shifts inside next) (present : ∀ {value}, absent? value = some true → read value = none)
    (keeps : ∀ {value other}, inside name value other → Keeps read value other)
    {a : α} (h : record.required? name read = some a) : next.required? name read = some a := by
  replace shifts := shifts.2 name
  unfold Record.required? at h ⊢
  generalize record.given? name = before at h shifts
  generalize next.given? name = after at shifts ⊢
  cases shifts with
  | same => exact h
  | omitted absent => cases (present absent).symm.trans h
  | changed change => exact keeps change h

end Record.Shifts

/-- **Whatever is read of a record is read of it after a change,** if it is so of each of its values. -/
theorem ObjectRespelt.keeps {object : List (String × σ) → σ} {value other : σ}
    (change : ObjectRespelt object fields inside value other) {read : σ → Option α} {body : Record σ → Option α}
    (ofObject : ∀ members, read (object members) = (Record.ofMembers? all (texts members)).bind body)
    (separate : Separate all) (among : fields ⊆ all)
    (each : ∀ {record next : Record σ}, record.Shifts inside next → ∀ ⦃a : α⦄, body record = some a → body next = some a) :
    Keeps read value other := by
  obtain ⟨change⟩ := change
  intro a h
  rw [ofObject] at h ⊢
  obtain ⟨record, hrecord, h⟩ := Option.bind_eq_some_iff.mp h
  obtain ⟨next, hnext, shifts⟩ := change.exists_shifts separate among hrecord
  exact Option.bind_eq_some_iff.mpr ⟨next, hnext, each shifts h⟩

end

end LoadTest.Format
