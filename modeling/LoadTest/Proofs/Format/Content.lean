import LoadTest.Proofs.Format.Record

/-!
# LoadTest.Proofs.Format.Content

What JSON says of itself. **A value that was written is read from what it says just as well as from itself**
(`Tells`), member by member. A change to the members of an object is one to what the object says
(`exists_content?_of_respelt`), and brackets nest no deeper after it.
-/

namespace LoadTest.Json

open Format

variable {α : Type}

/-! ### Depth -/

theorem membersFitDepth_iff {limit : Nat} {members : List (Option String × Json)} :
    membersFitDepth limit members = true ↔ ∀ member ∈ members, fitsDepth limit member.2 = true := by
  induction members with
  | nil => simp [membersFitDepth]
  | cons member members ih => simp [membersFitDepth, ih]

theorem fitsDepth_ofMembers_iff {limit : Nat} {members : List (String × Json)} :
    fitsDepth (limit + 1) (ofMembers members) = true ↔ ∀ member ∈ members, fitsDepth limit member.2 = true := by
  rw [ofMembers, fitsDepth, membersFitDepth_iff, List.forall_mem_map]

/-- Inside of so many brackets a value says something if it fits and its parts say something. -/
theorem content?_eq_some_iff {outer : Nat} {json : Json} {content : Content} :
    Source.content? outer json = some content
      ↔ fitsDepth (depthLimit - outer) json = true ∧ json.content? = some content := by
  show (if fitsDepth (depthLimit - outer) json then json.content? else none) = some content ↔ _
  split
  · next h => simp [h]
  · next h => simp [h]

theorem fitsDepth_ofOption {α : Type} {limit : Nat} {write : α → Json} {given : Option α}
    (each : ∀ a ∈ given, fitsDepth limit (write a) = true) : fitsDepth limit (ofOption write given) = true := by
  cases given with
  | none => exact fitsDepth.eq_def _ _
  | some a => exact each a rfl

/-! ### What values say -/

theorem content?_ofMembers (members : List (String × Json)) : (ofMembers members).content?
    = (readValues? Json.content? members).map fun contents => Content.map (texts contents) := by
  have hmembers : memberContents? (members.map fun member => (some member.1, member.2))
      = (readValues? Json.content? members).map texts := by
    induction members with
    | nil => rfl
    | cons member members ih =>
        rw [List.map_cons, memberContents?, ih, readValues?_cons]
        show (Json.content? member.2).bind _ = _
        cases Json.content? member.2 with
        | none => rfl
        | some content => cases readValues? Json.content? members <;> rfl
  rw [ofMembers, Json.content?, hmembers, Option.map_map]
  rfl

/-- What says that it is absent is so. -/
theorem absent?_of_content? {json : Json} {content : Content} (h : json.content? = some content) :
    absent? content = absent? json := by
  cases json with
  | null =>
      cases h
      rfl
  | bool b =>
      cases h
      rfl
  | number numeral =>
      rw [Json.content?] at h
      split at h
      · cases h
        rfl
      · cases h
        rfl
      · cases h
        rfl
      · cases h
  | string s =>
      obtain ⟨text, rfl, rfl⟩ := Option.map_eq_some_iff.mp h
      rfl
  | array items =>
      rw [Json.content?] at h
      obtain ⟨contents, -, rfl⟩ := Option.map_eq_some_iff.mp h
      rfl
  | object members =>
      rw [Json.content?] at h
      obtain ⟨contents, -, rfl⟩ := Option.map_eq_some_iff.mp h
      rfl

/-- What a value says of itself is read as this. -/
def Tells (json : Json) (read : Content → Option α) (a : α) : Prop :=
  ∃ content, json.content? = some content ∧ read content = some a

theorem tells_ofString (s : String) : Tells (ofString s) text? s := ⟨.text s, rfl, rfl⟩

theorem tells_ofWord (n : UInt64) : Tells (ofWord n) word? n := by
  obtain ⟨digits, hdigits, hvalue⟩ := word?_eq_some_iff.mp (word?_ofWord n)
  have hmeaning : Numeral.meaning? ⟨false, digits, [], none⟩ = some (.natural n) :=
    meaning?_eq_natural_iff.mpr ⟨rfl, rfl, rfl, hvalue⟩
  refine ⟨.integer n.toNat, ?_, ?_⟩
  · rw [hdigits, Json.content?, hmeaning]
  · show (if n.toNat < UInt64.size then some (UInt64.ofNat n.toNat) else none) = some n
    rw [if_pos n.toNat_lt, UInt64.ofNat_toNat]

theorem exists_number_of_double? {json : Json} {x : Binary64} (h : double? json = some x) :
    ∃ numeral, json = .number numeral := by
  cases json with
  | number numeral => exact ⟨numeral, rfl⟩
  | _ => cases h

/-- A number says which double it is. -/
theorem tells_of_double? {json : Json} {x : Binary64} (h : double? json = some x) : Tells json double? x := by
  cases json with
  | number numeral =>
      simp only [double?] at h
      rw [Tells, Json.content?]
      split at h
      · next n hmeaning =>
        cases h
        exact ⟨_, rfl, rfl⟩
      · next i hmeaning =>
        cases h
        have hneg := negative_of_meaning? hmeaning
        refine ⟨_, rfl, ?_⟩
        show some (Binary64.ofQuotient (decide (i < 0)) i.natAbs 1) = _
        rw [decide_eq_true hneg]
      · next hmeaning =>
        cases h
        exact ⟨_, rfl, rfl⟩
      · cases h
  | _ => cases h

/-- A value that may be absent. -/
theorem tells_ofOption {write : α → Json} {read : Content → Option α} {given : Option α}
    (each : ∀ a ∈ given, absent? (write a) = some false ∧ Tells (write a) read a) :
    Tells (ofOption write given) (optional? read) given := by
  cases given with
  | none => exact ⟨.null, rfl, rfl⟩
  | some a =>
      obtain ⟨present, content, hcontent, hread⟩ := each a rfl
      refine ⟨content, hcontent, ?_⟩
      rw [optional?, absent?_of_content? hcontent, present, Option.bind_some, if_neg Bool.false_ne_true, hread]
      rfl

/-- Inside of so many brackets it says the same. -/
theorem Tells.exists_content? {json : Json} {read : Content → Option α} {a : α} (tells : Tells json read a) {outer : Nat}
    (fits : fitsDepth (depthLimit - outer) json = true) :
    ∃ content, Source.content? outer json = some content ∧ read content = some a := by
  obtain ⟨content, hcontent, hread⟩ := tells
  exact ⟨content, content?_eq_some_iff.mpr ⟨fits, hcontent⟩, hread⟩

/-- An object says what its members say. -/
theorem content?_ofMembers_eq_some {members : List (String × Json)} {contents : List (String × Content)}
    (said : readValues? Json.content? members = some contents) :
    (ofMembers members).content? = some (.map (texts contents)) := by
  rw [content?_ofMembers, said]
  rfl

/-! ### Changes -/

/-- **A change to the members of an object is one to what it says.** -/
theorem exists_content?_of_respelt {fields : List Field} {json other : Json}
    (change : ObjectRespelt ofMembers fields Untouched json other) {outer : Nat} {content : Content}
    (h : Source.content? outer json = some content) :
    ∃ next, Source.content? outer other = some next ∧ ObjectRespelt (.map ∘ texts) fields Untouched content next := by
  obtain @⟨members, changed, change⟩ := change
  obtain ⟨hfits, hcontent⟩ := content?_eq_some_iff.mp h
  rw [content?_ofMembers] at hcontent
  obtain ⟨contents, hcontents, rfl⟩ := Option.map_eq_some_iff.mp hcontent
  obtain ⟨next, hnext, hchange⟩ :
      ∃ next, readValues? Json.content? changed = some next ∧ Respelt fields Untouched contents next :=
    change.exists_readValues? hcontents (fun hvalue absent => (absent?_of_content? hvalue).trans absent) False.elim
  refine ⟨.map (texts next), content?_eq_some_iff.mpr ⟨?_, content?_ofMembers_eq_some hnext⟩, ⟨hchange⟩⟩
  cases hlimit : depthLimit - outer with
  | zero => simp [hlimit, ofMembers, fitsDepth] at hfits
  | succ limit =>
      rw [hlimit] at hfits
      exact fitsDepth_ofMembers_iff.mpr (change.forall_mem (p := (fitsDepth limit ·)) (fitsDepth_ofMembers_iff.mp hfits))

end LoadTest.Json
