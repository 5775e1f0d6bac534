import LoadTest.Metric.Stored
import LoadTest.Proofs.Format.Spelling
import LoadTest.Proofs.Json.Double
import LoadTest.Proofs.Json.Text

/-!
# LoadTest.Proofs.Format.Record

Records read back from the JSON objects that were written for them. **A field has the value written under its
name,** whatever the order of the members, as long as no name is written twice (`bind_ofMembers`). The
values of the fields are read one by one, so what remains is to know each kind of value. For a record of one
field, and for texts and natural numbers, it is said of every JSON value whether it is read, and as what.
-/

namespace LoadTest

open Format

namespace Json

/-! ### Objects -/

theorem members?_ofMembers (members : List (String × Json)) : members? (ofMembers members) = some (texts members) := by
  show (members.map fun member => (some member.1, member.2)).mapM _ = _
  rw [List.mapM_map]
  exact mapM_eq_some_map fun member _ => rfl

theorem ofSource?_ofMembers (fields : List Field) (members : List (String × Json)) :
    Record.ofSource? fields (ofMembers members) = Record.ofMembers? fields (texts members) := by
  rw [Record.ofSource?, members?_ofMembers]

/-- Values under text keys are read one by one. -/
theorem entries?_ofMembers {α : Type} (read : Json → Option α) (members : List (String × Json)) :
    entries? read (ofMembers members) = readValues? read members := by
  rw [entries?, members?_ofMembers, readValues?, texts]
  show (members.map _).mapM _ = _
  rw [List.mapM_map]
  refine mapM_congr fun member _ => ?_
  show (read member.2).bind _ = _
  rw [Option.map_eq_bind]
  rfl

/-- A field without other spellings for each name. -/
def fieldsOf (names : List String) : List Field := names.map fun name => ⟨name, []⟩

/-- What is read of an object by its members is read of their record. -/
theorem bind_ofMembers {α : Type} (names : List String) {members : List (String × Json)}
    {read : Record Json → Option α} (fields : names.Nodup) (distinct : (members.map (·.1)).Nodup) :
    (Record.ofSource? (fieldsOf names) (ofMembers members)).bind read = read (recordOf names members) := by
  have separate : Separate (fieldsOf names) := by
    simpa [Separate, fieldsOf, Field.spellings, List.flatMap_map] using fields
  have hnames : (fieldsOf names).map (·.name) = names := by simp [fieldsOf, Function.comp_def]
  have hplain : ∀ field ∈ fieldsOf names, ∀ member ∈ members, member.1 ∉ field.aliases := by simp [fieldsOf]
  rw [ofSource?_ofMembers, ofMembers?_of_plain separate distinct hplain, hnames, Option.bind_some]

/-! ### Records of one field -/

/-- An object with exactly one member of a name, and texts for the names of all. -/
def HasOnly (name : String) (value json : Json) : Prop :=
  ∃ members : List (String × Json),
    json = ofMembers members ∧ members.filter (·.1 == name) = [(name, value)]

/-- An object is kept only if the names of its members are texts. -/
theorem exists_of_textMembers? {members : List (Option String × Json)} {contents : List (Content × Json)}
    (h : textMembers? members = some contents) :
    ∃ named : List (String × Json), Json.object members = ofMembers named := by
  have hkeys : ∀ member ∈ members, member.1.isSome = true := by
    have hall := Table.isSome_mapM_iff.mp (Option.isSome_of_eq_some h)
    exact fun member mem => by simpa using hall member mem
  refine ⟨members.map fun member => (member.1.getD "", member.2), congrArg Json.object ?_⟩
  rw [List.map_map]
  refine (List.map_id _).symm.trans (List.map_congr_left fun member mem => ?_)
  obtain ⟨key, hkey⟩ := Option.isSome_iff_exists.mp (hkeys member mem)
  exact Prod.ext (by simp [hkey]) rfl

/-- Other members are skipped, and a name that is given twice is no record. -/
theorem given?_one_ofMembers (name : String) (members : List (String × Json)) :
    (Record.ofSource? [⟨name, []⟩] (ofMembers members)).bind (·.given? name)
      = match members.filter (·.1 == name) with
        | [member] => some member.2
        | _ => none := by
  have hvalues : Field.values ⟨name, []⟩ members = (members.filter (·.1 == name)).map (·.2) := by
    refine congrArg _ (List.filter_congr fun member _ => ?_)
    rw [Bool.eq_iff_iff, Field.isNamed_iff, Field.spellings, List.mem_singleton, beq_iff_eq]
  rw [ofSource?_ofMembers, Record.ofMembers?_texts (by simp [Separate, Field.spellings])]
  simp only [List.mapM_cons, List.mapM_nil, hvalues]
  generalize members.filter (·.1 == name) = only
  rcases only with _ | ⟨member, _ | ⟨second, rest⟩⟩ <;> simp [Record.only?, Record.given?]

/-- **A field is given by the one member of its name,** or by a row of one value. -/
theorem given?_one_iff {name : String} {value json : Json} :
    (Record.ofSource? [⟨name, []⟩] json).bind (·.given? name) = some value
      ↔ HasOnly name value json ∨ json = .array [value] := by
  cases json with
  | object members =>
    have hrow : Json.object members ≠ .array [value] := nofun
    rw [or_iff_left hrow]
    constructor
    · intro h
      obtain ⟨record, hrecord, -⟩ := Option.bind_eq_some_iff.mp h
      cases htexts : textMembers? members with
      | none =>
        have hmembers : members? (Json.object members) = none := htexts
        have hnone : Record.ofSource? [⟨name, []⟩] (Json.object members) = none := by
          rw [Record.ofSource?, hmembers]
          rfl
        cases hnone.symm.trans hrecord
      | some contents =>
        obtain ⟨named, hnamed⟩ := exists_of_textMembers? htexts
        refine ⟨named, hnamed, ?_⟩
        rw [hnamed, given?_one_ofMembers] at h
        split at h
        · next member hfilter =>
          cases h
          have hname : member.1 = name := by
            have hmem : member ∈ named.filter (·.1 == name) := hfilter ▸ List.mem_singleton_self member
            exact beq_iff_eq.mp (List.mem_filter.mp hmem).2
          rw [hfilter, ← hname]
        · cases h
    · rintro ⟨named, hnamed, hfilter⟩
      rw [hnamed, given?_one_ofMembers, hfilter]
  | array items =>
    have hobject : ¬ HasOnly name value (.array items) := nofun
    rw [or_iff_right hobject, Json.array.injEq]
    show (Record.ofRow? [⟨name, []⟩] items).bind (·.given? name) = some value ↔ _
    rcases items with _ | ⟨item, _ | ⟨second, rest⟩⟩ <;> simp [Record.ofRow?, Record.given?]
  | _ =>
    refine iff_of_false (fun h => ?_) ?_
    · cases h
    · rintro (⟨named, h, -⟩ | h) <;> cases h

theorem required?_one_iff {α : Type} {name : String} {read : Json → Option α} {a : α} {json : Json} :
    (Record.ofSource? [⟨name, []⟩] json).bind (·.required? name read) = some a
      ↔ ∃ value, (HasOnly name value json ∨ json = .array [value]) ∧ read value = some a := by
  have hassoc : (Record.ofSource? [⟨name, []⟩] json).bind (·.required? name read)
      = ((Record.ofSource? [⟨name, []⟩] json).bind (·.given? name)).bind read :=
    (Option.bind_assoc ..).symm
  rw [hassoc, Option.bind_eq_some_iff]
  exact exists_congr fun value => and_congr_left' given?_one_iff

/-! ### Single values -/

theorem text?_ofString (s : String) : text? (ofString s) = some s := rfl

theorem text?_eq_some_iff {json : Json} {s : String} : text? json = some s ↔ json = ofString s := by
  constructor
  · intro h
    cases json with
    | string text => exact congrArg Json.string h
    | _ => cases h
  · rintro rfl
    rfl

theorem optional?_ofString (s : String) : optional? text? (ofString s) = some (some s) := rfl

theorem bool?_bool (b : Bool) : bool? (Json.bool b) = some b := rfl

theorem le_digitsValue_from (ds : List Nat) (n : Nat) : n ≤ ds.foldl (fun n d => 10 * n + d) n := by
  induction ds generalizing n with
  | nil => exact Nat.le_refl n
  | cons d ds ih => exact Nat.le_trans (by omega) (ih (10 * n + d))

/-- Digits that stay below `2 ^ 64` are all taken. -/
theorem takeWord_eq {ds : List Nat} {n : Nat} (small : ds.foldl (fun n d => 10 * n + d) n < UInt64.size) :
    takeWord n ds = (ds.foldl (fun n d => 10 * n + d) n, []) := by
  induction ds generalizing n with
  | nil => rfl
  | cons d ds ih =>
      have hstep : 10 * n + d < UInt64.size := Nat.lt_of_le_of_lt (le_digitsValue_from ds _) small
      rw [takeWord, if_pos hstep, ih small]
      rfl

/-- If no digit is left over, all of them count. -/
theorem eq_of_takeWord {ds : List Nat} {n m : Nat} (h : takeWord n ds = (m, [])) :
    ds.foldl (fun n d => 10 * n + d) n = m := by
  induction ds generalizing n with
  | nil => exact congrArg Prod.fst h
  | cons d ds ih =>
      rw [takeWord] at h
      split at h
      · exact ih h
      · cases h

/-- **A numeral denotes a natural number if it has digits alone,** without a sign, a point or an exponent. -/
theorem meaning?_eq_natural_iff {numeral : Numeral} {n : UInt64} :
    numeral.meaning? = some (.natural n) ↔
      numeral.negative = false ∧ numeral.fraction = [] ∧ numeral.exponent = none
        ∧ Token.digitsValue numeral.whole = n.toNat := by
  obtain ⟨negative, whole, fraction, exponent⟩ := numeral
  have hlt : (takeWord 0 whole).1 < UInt64.size := takeWord_lt (by decide)
  constructor
  · intro h
    rw [Numeral.meaning?] at h
    rcases htake : takeWord 0 whole with ⟨m, dropped⟩
    simp only [htake] at h hlt
    split at h
    · next hplain =>
      simp only [List.isEmpty_iff, Option.isNone_iff_eq_none] at hplain
      obtain ⟨rfl, rfl, rfl⟩ := hplain
      cases negative with
      | false =>
          obtain rfl : UInt64.ofNat m = n := by simpa using h
          exact ⟨rfl, rfl, rfl, (eq_of_takeWord htake).trans (UInt64.toNat_ofNat_of_lt' hlt).symm⟩
      | true =>
          simp only [not_true_eq_false, if_false] at h
          split at h <;> cases h
    · obtain ⟨x, -, h⟩ := Option.bind_eq_some_iff.mp h
      cases h
  · rintro ⟨rfl, rfl, rfl, hvalue⟩
    have htake : takeWord 0 whole = (n.toNat, []) := by
      have hsum : whole.foldl (fun n d => 10 * n + d) 0 = n.toNat := hvalue
      rw [takeWord_eq (hsum.symm ▸ n.toNat_lt), hsum]
    simp [Numeral.meaning?, htake]

theorem negative_of_meaning? {numeral : Numeral} {i : Int} (h : numeral.meaning? = some (.negative i)) :
    i < 0 := by
  rw [Numeral.meaning?] at h
  rcases htake : takeWord 0 numeral.whole with ⟨m, dropped⟩
  simp only [htake] at h
  split at h
  · split at h
    · cases h
    · split at h
      · next hpos =>
        cases h
        omega
      · cases h
  · obtain ⟨x, -, h⟩ := Option.bind_eq_some_iff.mp h
    cases h

theorem takeWord_digitsOf {n : Nat} (small : n < UInt64.size) : takeWord 0 (digitsOf n) = (n, []) := by
  have hvalue : (digitsOf n).foldl (fun n d => 10 * n + d) 0 = n := digitsValue_digitsOf n
  rw [takeWord_eq (hvalue.symm ▸ small), hvalue]

/-- **An integer is read back** if it is one of 64 bits, with or without a sign. -/
theorem integer?_ofInt {i : Int} (least : -signedLimit ≤ i) (greatest : i < UInt64.size) :
    integer? (ofInt i) = some i := by
  have hlimit : signedLimit < UInt64.size := by decide
  have htake : takeWord 0 (digitsOf i.natAbs) = (i.natAbs, []) := takeWord_digitsOf (by omega)
  have hmeaning : Numeral.meaning? ⟨decide (i < 0), digitsOf i.natAbs, [], none⟩
      = some (if i < 0 then .negative i else .natural (UInt64.ofNat i.natAbs)) := by
    rw [Numeral.meaning?, htake]
    by_cases hneg : i < 0
    · have hrange : 0 < i.natAbs ∧ i.natAbs ≤ signedLimit := by omega
      have habs : -(i.natAbs : Int) = i := by omega
      rw [decide_eq_true hneg, if_pos hneg]
      refine (if_pos (by simp)).trans ?_
      rw [if_neg (by simp), if_pos hrange, habs]
    · simp [hneg]
  by_cases hneg : i < 0
  · rw [if_pos hneg] at hmeaning
    simp only [integer?, ofInt, hmeaning]
  · have habs : (((UInt64.ofNat i.natAbs).toNat : Nat) : Int) = i := by
      rw [UInt64.toNat_ofNat_of_lt' (by omega)]
      omega
    rw [if_neg hneg] at hmeaning
    simp only [integer?, ofInt, hmeaning, habs]

/-- An integer of 64 bits, one of them for the sign. -/
def Signed (i : Int) : Prop := -signedLimit ≤ i ∧ i < signedLimit

theorem signed?_ofInt {i : Int} (h : Signed i) : signed? (ofInt i) = some i := by
  have hlimit : signedLimit < UInt64.size := by decide
  have hgreatest := h.2
  rw [signed?, integer?_ofInt h.1 (by omega)]
  exact if_pos h

theorem signed_of_signed? {json : Json} {i : Int} (h : signed? json = some i) : Signed i := by
  obtain ⟨j, -, h⟩ := Option.bind_eq_some_iff.mp h
  split at h
  · next hrange =>
    cases h
    exact hrange
  · cases h

theorem word?_ofWord (n : UInt64) : word? (ofWord n) = some n := by
  have hsmall : n.toNat < UInt64.size := n.toNat_lt
  have hnatural : natural? (ofWord n) = some n.toNat := by
    show (integer? (ofInt n.toNat)).bind Int.toNat? = some n.toNat
    rw [integer?_ofInt (by omega) (by omega)]
    rfl
  rw [word?, hnatural]
  show (if n.toNat < UInt64.size then some (UInt64.ofNat n.toNat) else none) = some n
  rw [if_pos hsmall, UInt64.ofNat_toNat]

/-- **A natural number of 64 bits is read from its digits,** and from nothing else. -/
theorem word?_eq_some_iff {json : Json} {n : UInt64} :
    word? json = some n ↔
      ∃ digits, json = .number ⟨false, digits, [], none⟩ ∧ Token.digitsValue digits = n.toNat := by
  constructor
  · intro h
    obtain ⟨m, hm, hword⟩ := Option.bind_eq_some_iff.mp h
    obtain ⟨i, hi, htoNat⟩ := Option.bind_eq_some_iff.mp hm
    obtain rfl : i = m := Int.mem_toNat?.mp htoNat
    cases json with
    | number numeral =>
        obtain ⟨negative, whole, fraction, exponent⟩ := numeral
        simp only at hi
        split at hi
        · next k hmeaning =>
          obtain rfl : k.toNat = m := Int.ofNat.inj (Option.some.inj hi)
          obtain ⟨rfl, rfl, rfl, hvalue⟩ := meaning?_eq_natural_iff.mp hmeaning
          rw [if_pos k.toNat_lt, UInt64.ofNat_toNat] at hword
          cases hword
          exact ⟨whole, rfl, hvalue⟩
        · next j hmeaning =>
          have hneg := negative_of_meaning? hmeaning
          obtain rfl : j = m := by simpa using hi
          omega
        · cases hi
    | _ => cases hi
  · rintro ⟨digits, rfl, hvalue⟩
    have hmeaning : Numeral.meaning? ⟨false, digits, [], none⟩ = some (.natural n) :=
      meaning?_eq_natural_iff.mpr ⟨rfl, rfl, rfl, hvalue⟩
    have hnatural : natural? (Json.number ⟨false, digits, [], none⟩) = some n.toNat := by
      show (integer? (Json.number ⟨false, digits, [], none⟩)).bind Int.toNat? = _
      simp only [integer?, hmeaning]
      rfl
    rw [word?, hnatural]
    show (if n.toNat < UInt64.size then some (UInt64.ofNat n.toNat) else none) = some n
    rw [if_pos n.toNat_lt, UInt64.ofNat_toNat]

/-! ### Lists and tables -/

theorem list?_array {α β : Type} {read : Json → Option β} {write : α → Json} {g : α → β} {list : List α}
    (each : ∀ a ∈ list, read (write a) = some (g a)) :
    list? read (.array (list.map write)) = some (list.map g) := by
  show (list.map write).mapM read = _
  rw [List.mapM_map]
  exact mapM_eq_some_map each

theorem mapM_pair {α β γ : Type} (f : β → Option γ) (entries : List (α × β)) :
    (entries.mapM fun entry => (f entry.2).map (Prod.mk entry.1))
      = (entries.mapM fun entry => f entry.2).map ((entries.map (·.1)).zip ·) := by
  induction entries with
  | nil => rfl
  | cons head rest ih =>
      rw [List.mapM_cons, List.mapM_cons, ih]
      cases f head.2 with
      | none => rfl
      | some value => cases rest.mapM fun entry => f entry.2 <;> rfl

/-- **A table is read value by value,** and is none if one of them is none. -/
theorem table?_ofTable {α β : Type} (read : Json → Option β) (write : α → Json) (t : Table α) :
    Metric.table? read (ofTable write t) = t.mapM? fun a => read (write a) := by
  have hentries : entries? read (ofTable write t)
      = (t.entries.mapM fun entry => read (write entry.2)).map (t.keys.zip ·) := by
    rw [ofTable, entries?_ofMembers, readValues?, List.mapM_map]
    exact mapM_pair (fun a => read (write a)) t.entries
  rw [Metric.table?, hentries, Table.mapM?, Option.map_map]
  refine congrArg (Option.map · _) (funext fun values => ?_)
  exact Table.ofList_entries ⟨t.keys.zip values, Table.pairwise_zip (List.pairwise_map.2 t.sorted)⟩

/-- A table is read back if every value is. -/
theorem table?_ofTable_self {α : Type} {read : Json → Option α} {write : α → Json}
    (each : ∀ a, read (write a) = some a) (t : Table α) : Metric.table? read (ofTable write t) = some t := by
  rw [table?_ofTable, Table.mapM?_eq_some (g := id) fun entry _ => each entry.2]
  simp [Table.map]

end Json

end LoadTest
