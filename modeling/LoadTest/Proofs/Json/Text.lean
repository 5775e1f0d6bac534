import LoadTest.Json.Reader
import LoadTest.Proofs.Json.Numeral

/-!
# LoadTest.Proofs.Json.Text

JSON that was written is read back as it was (`ofText?_textWith`), on one line or with a line for each part. The
way there is by tokens: **the tokens of a value are found in its text,** whatever the spacing, and the reader
makes the value of them again.
-/

namespace LoadTest.Json

/-! ### Values that can be written -/

mutual

/-- A value whose numerals can be written and whose quoted texts are texts. -/
def Written : Json → Prop
  | .number numeral => numeral.Written
  | .string s => s.isSome = true
  | .array items => ItemsWritten items
  | .object members => MembersWritten members
  | _ => True

/-- `Written` for each item. -/
def ItemsWritten : List Json → Prop
  | [] => True
  | item :: items => Written item ∧ ItemsWritten items

/-- `Written` for each member, whose key is a text too. -/
def MembersWritten : List (Option String × Json) → Prop
  | [] => True
  | (key, value) :: members => key.isSome = true ∧ Written value ∧ MembersWritten members

end

theorem itemsWritten_iff {items : List Json} : ItemsWritten items ↔ ∀ item ∈ items, Written item := by
  induction items with
  | nil => simp [ItemsWritten]
  | cons item items ih => simp [ItemsWritten, ih]

theorem written_ofMembers {members : List (String × Json)} (each : ∀ member ∈ members, Written member.2) :
    Written (ofMembers members) := by
  show MembersWritten (members.map fun member => (some member.1, member.2))
  induction members with
  | nil => trivial
  | cons member members ih =>
      obtain ⟨hmember, hmembers⟩ := List.forall_mem_cons.mp each
      exact ⟨rfl, hmember, ih hmembers⟩

theorem written_ofTable {α : Type} {write : α → Json} {t : Table α}
    (each : ∀ entry ∈ t.entries, Written (write entry.2)) : Written (ofTable write t) :=
  written_ofMembers (List.forall_mem_map.mpr each)

theorem written_word (n : UInt64) : Written (ofWord n) := written_ofInt n.toNat

theorem ofDouble_finite (negative : Bool) (units : Nat) (representable : Binary64.Representable units) :
    ∃ numeral, ofDouble (.finite negative units representable) = .number numeral := by
  simp only [ofDouble, ofDecimal]
  repeat' split
  all_goals exact ⟨_, rfl⟩

theorem written_double (x : Binary64) : Written (ofDouble x) := by
  cases x with
  | nan => trivial
  | infinite negative => trivial
  | finite negative units representable =>
      obtain ⟨numeral, h⟩ := ofDouble_finite negative units representable
      rw [h]
      exact written_ofDouble h

/-! ### Tokens of a value -/

mutual

/-- The tokens that spell out a value. -/
def tokens : Json → List Token
  | .null => [.null]
  | .bool b => [.bool b]
  | .number numeral => [.number numeral]
  | .string s => [.string s]
  | .array [] => [.openArray, .closeArray]
  | .array (item :: items) => .openArray :: (tokens item ++ (itemsTokens items ++ [.closeArray]))
  | .object [] => [.openObject, .closeObject]
  | .object ((key, value) :: members) =>
      .openObject :: .string key :: .colon :: (tokens value ++ (membersTokens members ++ [.closeObject]))

/-- The tokens of the items after the first. -/
def itemsTokens : List Json → List Token
  | [] => []
  | item :: items => .comma :: (tokens item ++ itemsTokens items)

/-- The tokens of the members after the first. -/
def membersTokens : List (Option String × Json) → List Token
  | [] => []
  | (key, value) :: members =>
      .comma :: .string key :: .colon :: (tokens value ++ membersTokens members)

end

/-! ### From tokens to the value -/

namespace ReaderState

theorem steps?_append (state : ReaderState) (first second : List Token) :
    state.steps? (first ++ second) = (state.steps? first).bind fun next => next.steps? second := by
  induction first generalizing state with
  | nil => rfl
  | cons token first ih =>
      rw [List.cons_append, steps?, steps?]
      cases state.step? token with
      | none => rfl
      | some next => exact ih next

mutual

/-- **The tokens of a value are read as the value,** and brackets that were open stay so. -/
theorem steps?_tokens (frames : List Frame) {expecting : Expecting}
    (open' : expecting = .value ∨ expecting = .firstItem) :
    ∀ json : Json, steps? ⟨frames, [], expecting⟩ (tokens json) = some (after frames json)
  | .null => by rcases open' with rfl | rfl <;> rfl
  | .bool b => by rcases open' with rfl | rfl <;> rfl
  | .number numeral => by rcases open' with rfl | rfl <;> rfl
  | .string s => by rcases open' with rfl | rfl <;> rfl
  | .array [] => by rcases open' with rfl | rfl <;> rfl
  | .array (item :: items) => by
      have hopen : steps? ⟨frames, [], expecting⟩ (tokens (.array (item :: items)))
          = steps? ⟨.array [] :: frames, [], .firstItem⟩ (tokens item ++ (itemsTokens items ++ [.closeArray])) := by
        rcases open' with rfl | rfl <;> rfl
      rw [hopen, steps?_append, steps?_tokens _ (.inr rfl) item]
      exact steps?_items frames [] item items
  | .object [] => by rcases open' with rfl | rfl <;> rfl
  | .object ((key, value) :: members) => by
      have hopen : steps? ⟨frames, [], expecting⟩ (tokens (.object ((key, value) :: members)))
          = steps? ⟨.object [] key :: frames, [], .value⟩
            (tokens value ++ (membersTokens members ++ [.closeObject])) := by
        rcases open' with rfl | rfl <;> rfl
      rw [hopen, steps?_append, steps?_tokens _ (.inl rfl) value]
      exact steps?_members frames [] key value members

/-- The items after the first, up to the closing bracket. -/
theorem steps?_items (frames : List Frame) (seen : List Json) (last : Json) :
    ∀ items : List Json, steps? (after (.array seen :: frames) last) (itemsTokens items ++ [.closeArray])
      = some (after frames (.array ((last :: seen).reverse ++ items)))
  | [] => by
      rw [List.append_nil]
      rfl
  | item :: items => by
      have hcomma : steps? (after (.array seen :: frames) last) (itemsTokens (item :: items) ++ [.closeArray])
          = steps? ⟨.array (last :: seen) :: frames, [], .value⟩
            (tokens item ++ (itemsTokens items ++ [.closeArray])) := by
        rw [itemsTokens, List.cons_append, List.append_assoc]
        rfl
      rw [hcomma, steps?_append, steps?_tokens _ (.inl rfl) item]
      refine (steps?_items frames (last :: seen) item items).trans ?_
      simp

/-- The members after the first, up to the closing bracket. -/
theorem steps?_members (frames : List Frame) (seen : List (Option String × Json)) (key : Option String)
    (last : Json) :
    ∀ members : List (Option String × Json),
      steps? (after (.object seen key :: frames) last) (membersTokens members ++ [.closeObject])
        = some (after frames (.object (((key, last) :: seen).reverse ++ members)))
  | [] => by
      rw [List.append_nil]
      rfl
  | (next, value) :: members => by
      have hcomma : steps? (after (.object seen key :: frames) last)
          (membersTokens ((next, value) :: members) ++ [.closeObject])
          = steps? ⟨.object ((key, last) :: seen) next :: frames, [], .value⟩
            (tokens value ++ (membersTokens members ++ [.closeObject])) := by
        rw [membersTokens, List.cons_append, List.cons_append, List.cons_append, List.append_assoc]
        rfl
      rw [hcomma, steps?_append, steps?_tokens _ (.inl rfl) value]
      refine (steps?_members frames ((key, last) :: seen) next value members).trans ?_
      simp

end

end ReaderState

theorem ofTokens?_tokens (json : Json) : ofTokens? (tokens json) = some json := by
  rw [ofTokens?, ReaderState.start, ReaderState.steps?_tokens [] (.inl rfl) json]
  rfl

/-! ### From the text to tokens -/

namespace Token

/-- The tokens of some bytes are these, whatever was seen before. -/
def Scans (bytes : List UInt8) (found : List Token) : Prop :=
  ∀ fuel seen, bytes.length ≤ fuel → scanFrom fuel seen bytes = some (seen.reverse ++ found)

theorem scans_nil : Scans [] [] := by
  intro fuel seen _
  cases fuel <;> simp [scanFrom]

theorem Scans.spaces {spaces rest : List UInt8} {found : List Token} (blank : ∀ b ∈ spaces, isSpace b = true)
    (h : Scans rest found) : Scans (spaces ++ rest) found := by
  induction spaces with
  | nil => exact h
  | cons b spaces ih =>
      obtain ⟨hb, hspaces⟩ := List.forall_mem_cons.mp blank
      intro fuel seen hfuel
      obtain ⟨fuel, rfl⟩ : ∃ n, fuel = n + 1 := ⟨fuel - 1, by simp at hfuel; omega⟩
      rw [List.cons_append, scanFrom, if_pos hb]
      exact ih hspaces fuel seen (by simpa using hfuel)

/-- No token begins with a blank. -/
theorem first?_space {b : UInt8} (h : isSpace b = true) (rest : List UInt8) : first? (b :: rest) = none := by
  simp only [isSpace, Bool.or_eq_true, beq_iff_eq] at h
  rcases h with ((rfl | rfl) | rfl) | rfl <;> rfl

theorem Scans.token {text rest : List UInt8} {token : Token} {found : List Token} (some : text ≠ [])
    (first : first? (text ++ rest) = .some (token, rest)) (h : Scans rest found) :
    Scans (text ++ rest) (token :: found) := by
  intro fuel seen hfuel
  obtain ⟨b, text, rfl⟩ := List.exists_cons_of_ne_nil some
  obtain ⟨fuel, rfl⟩ : ∃ n, fuel = n + 1 := ⟨fuel - 1, by simp at hfuel; omega⟩
  have hblank : ¬ isSpace b = true := fun hblank => by
    rw [List.cons_append, first?_space hblank] at first
    cases first
  rw [List.cons_append] at first ⊢
  rw [scanFrom, if_neg hblank, first]
  refine (h fuel (token :: seen) (by simp at hfuel; omega)).trans ?_
  simp

end Token

open Token

/-- The bytes of a text. -/
def textBytes (s : String) : List UInt8 := bytesOf s.toList

@[simp] theorem textBytes_append (a b : String) : textBytes (a ++ b) = textBytes a ++ textBytes b := by
  simp [textBytes]

/-- A text that is a token whatever follows. -/
theorem scans_mark {mark : String} {token : Token} {rest : List UInt8} {found : List Token}
    (some : textBytes mark ≠ []) (single : ∀ rest, first? (textBytes mark ++ rest) = .some (token, rest))
    (h : Scans rest found) : Scans (textBytes mark ++ rest) (token :: found) :=
  Scans.token some (single rest) h

/-- No numeral goes on with a line break, a comma or a closing bracket. -/
theorem ends_mark {mark : String} {b : UInt8} (rest : List UInt8) (single : textBytes mark = [b])
    (h : b ∈ [0x0A, 0x2C, 0x5D, 0x7D]) : Ends (textBytes mark ++ rest) := by
  rw [single]
  intro b' hb'
  obtain rfl : b = b' := by simpa using hb'
  simp only [List.mem_cons, List.not_mem_nil, or_false] at h
  rcases h with rfl | rfl | rfl | rfl <;> decide

/-! ### Spacing -/

namespace Spacing

theorem lineBreak_blank (spacing : Spacing) : ∀ b ∈ textBytes spacing.lineBreak, isSpace b = true := by
  unfold lineBreak
  split
  · intro b mem
    rw [textBytes_append] at mem
    rcases List.mem_append.mp mem with mem | mem
    · obtain rfl : b = 0x0A := by simpa [textBytes, utf8EncodeChar_of_lt] using mem
      rfl
    · have hspace : ∀ n, ∀ b ∈ bytesOf (List.replicate n ' '), b = 0x20 := by
        intro n
        induction n with
        | zero => simp
        | succ n ih =>
            rw [List.replicate_succ, bytesOf_cons]
            simpa [utf8EncodeChar_of_lt] using ih
      rw [textBytes, String.toList_ofList] at mem
      rw [hspace _ b mem]
      rfl
  · intro b mem
    cases mem

theorem ends_lineBreak (spacing : Spacing) {rest : List UInt8} (h : Ends rest) :
    Ends (textBytes spacing.lineBreak ++ rest) := by
  unfold lineBreak
  split
  · rw [textBytes_append, List.append_assoc]
    exact ends_mark _ rfl (by decide)
  · exact h

theorem scans_colon (spacing : Spacing) {rest : List UInt8} {found : List Token} (h : Scans rest found) :
    Scans (textBytes spacing.colon ++ rest) (.colon :: found) := by
  unfold colon
  split
  · have hcolon : textBytes ": " ++ rest = textBytes ":" ++ ([0x20] ++ rest) := rfl
    rw [hcolon]
    exact scans_mark (by decide) (fun _ => rfl) (Scans.spaces (List.forall_mem_singleton.mpr rfl) h)
  · exact scans_mark (by decide) (fun _ => rfl) h

end Spacing

/-! ### Values -/

theorem scans_quote (s : String) {rest : List UInt8} {found : List Token} (h : Scans rest found) :
    Scans (textBytes (quote s) ++ rest) (.string (some s) :: found) := by
  refine Scans.token ?_ (first?_quote s rest) h
  simp [quote, textBytes, utf8EncodeChar_of_lt]

theorem scans_numeral {numeral : Numeral} (written : numeral.Written) {rest : List UInt8}
    {found : List Token} (ends : Ends rest) (h : Scans rest found) :
    Scans (textBytes numeral.text ++ rest) (.number numeral :: found) := by
  refine Scans.token (fun hnone => ?_) (first?_numeral written ends) h
  have hends : Ends [] := by simp [Ends]
  have hfirst := first?_numeral written hends
  rw [textBytes] at hnone
  rw [hnone] at hfirst
  cases hfirst

/-- What follows an item or a member in its brackets: a comma, a line break or the closing bracket. -/
theorem ends_itemsText (spacing : Spacing) (items : List Json) {rest : List UInt8} (h : Ends rest) :
    Ends (textBytes (itemsText spacing items) ++ rest) := by
  cases items with
  | nil => exact h
  | cons item items =>
      simp only [itemsText, textBytes_append, List.append_assoc]
      exact ends_mark _ rfl (by decide)

theorem ends_membersText (spacing : Spacing) (members : List (Option String × Json)) {rest : List UInt8}
    (h : Ends rest) : Ends (textBytes (membersText spacing members) ++ rest) := by
  cases members with
  | nil => exact h
  | cons member members =>
      obtain ⟨key, value⟩ := member
      simp only [membersText, textBytes_append, List.append_assoc]
      exact ends_mark _ rfl (by decide)

mutual

/-- **The text of a value holds the tokens of the value,** if no part of a numeral follows. -/
theorem scans_textWith (spacing : Spacing) {rest : List UInt8} {found : List Token} (ends : Ends rest)
    (h : Scans rest found) : ∀ json : Json, json.Written →
    Scans (textBytes (textWith spacing json) ++ rest) (tokens json ++ found)
  | .null, _ => by
      rw [textWith, tokens]
      exact scans_mark (by decide) (fun _ => rfl) h
  | .bool true, _ => by
      rw [textWith, tokens, if_pos rfl]
      exact scans_mark (by decide) (fun _ => rfl) h
  | .bool false, _ => by
      rw [textWith, tokens, if_neg Bool.false_ne_true]
      exact scans_mark (by decide) (fun _ => rfl) h
  | .number numeral, written => by
      rw [textWith, tokens]
      exact scans_numeral (by simpa [Written] using written) ends h
  | .string s, written => by
      obtain ⟨s, rfl⟩ := Option.isSome_iff_exists.mp (by simpa [Written] using written)
      rw [textWith, tokens]
      exact scans_quote s h
  | .array [], _ => by
      have hbrackets : textBytes "[]" ++ rest = textBytes "[" ++ (textBytes "]" ++ rest) := rfl
      rw [textWith, tokens, hbrackets]
      exact scans_mark (by decide) (fun _ => rfl) (scans_mark (by decide) (fun _ => rfl) h)
  | .array (item :: items), written => by
      obtain ⟨hitem, hitems⟩ : Written item ∧ ItemsWritten items := by
        simpa [Written, ItemsWritten] using written
      rw [textWith, tokens]
      simp only [textBytes_append, List.append_assoc, List.cons_append, List.nil_append]
      have hclose : Scans (textBytes spacing.lineBreak ++ (textBytes "]" ++ rest)) (.closeArray :: found) :=
        Scans.spaces spacing.lineBreak_blank (scans_mark (by decide) (fun _ => rfl) h)
      have hends : Ends (textBytes spacing.lineBreak ++ (textBytes "]" ++ rest)) :=
        spacing.ends_lineBreak (ends_mark _ rfl (by decide))
      have hothers := scans_itemsText spacing.inner hends hclose items hitems
      have hfirst := scans_textWith spacing.inner (ends_itemsText _ _ hends) hothers item hitem
      exact scans_mark (by decide) (fun _ => rfl) (Scans.spaces spacing.inner.lineBreak_blank hfirst)
  | .object [], _ => by
      have hbrackets : textBytes "\x7b\x7d" ++ rest = textBytes "\x7b" ++ (textBytes "\x7d" ++ rest) := rfl
      rw [textWith, tokens, hbrackets]
      exact scans_mark (by decide) (fun _ => rfl) (scans_mark (by decide) (fun _ => rfl) h)
  | .object ((key, value) :: members), written => by
      obtain ⟨hkey, hvalue, hmembers⟩ : key.isSome = true ∧ Written value ∧ MembersWritten members := by
        simpa [Written, MembersWritten] using written
      obtain ⟨key, rfl⟩ := Option.isSome_iff_exists.mp hkey
      rw [textWith, tokens]
      simp only [textBytes_append, List.append_assoc, List.cons_append, List.nil_append]
      have hclose : Scans (textBytes spacing.lineBreak ++ (textBytes "\x7d" ++ rest)) (.closeObject :: found) :=
        Scans.spaces spacing.lineBreak_blank (scans_mark (by decide) (fun _ => rfl) h)
      have hends : Ends (textBytes spacing.lineBreak ++ (textBytes "\x7d" ++ rest)) :=
        spacing.ends_lineBreak (ends_mark _ rfl (by decide))
      have hothers := scans_membersText spacing.inner hends hclose members hmembers
      have hfirst := scans_textWith spacing.inner (ends_membersText _ _ hends) hothers value hvalue
      exact scans_mark (by decide) (fun _ => rfl) (Scans.spaces spacing.inner.lineBreak_blank
        (scans_quote key (spacing.scans_colon hfirst)))

theorem scans_itemsText (spacing : Spacing) {rest : List UInt8} {found : List Token} (ends : Ends rest)
    (h : Scans rest found) : ∀ items : List Json, ItemsWritten items →
    Scans (textBytes (itemsText spacing items) ++ rest) (itemsTokens items ++ found)
  | [], _ => by
      rw [itemsText, itemsTokens]
      exact h
  | item :: items, written => by
      obtain ⟨hitem, hitems⟩ : Written item ∧ ItemsWritten items := by
        simpa [ItemsWritten] using written
      rw [itemsText, itemsTokens]
      simp only [textBytes_append, List.append_assoc, List.cons_append]
      have hothers := scans_itemsText spacing ends h items hitems
      have hfirst := scans_textWith spacing (ends_itemsText _ _ ends) hothers item hitem
      exact scans_mark (by decide) (fun _ => rfl) (Scans.spaces spacing.lineBreak_blank hfirst)

theorem scans_membersText (spacing : Spacing) {rest : List UInt8} {found : List Token} (ends : Ends rest)
    (h : Scans rest found) : ∀ members : List (Option String × Json), MembersWritten members →
    Scans (textBytes (membersText spacing members) ++ rest) (membersTokens members ++ found)
  | [], _ => by
      rw [membersText, membersTokens]
      exact h
  | (key, value) :: members, written => by
      obtain ⟨hkey, hvalue, hmembers⟩ : key.isSome = true ∧ Written value ∧ MembersWritten members := by
        simpa [MembersWritten] using written
      obtain ⟨key, rfl⟩ := Option.isSome_iff_exists.mp hkey
      rw [membersText, membersTokens]
      simp only [textBytes_append, List.append_assoc, List.cons_append]
      have hothers := scans_membersText spacing ends h members hmembers
      have hfirst := scans_textWith spacing (ends_membersText _ _ ends) hothers value hvalue
      exact scans_mark (by decide) (fun _ => rfl) (Scans.spaces spacing.lineBreak_blank
        (scans_quote key (spacing.scans_colon hfirst)))

end

/-- **A value that can be written is read back from its text,** in whatever spacing. -/
theorem ofText?_textWith {json : Json} (written : json.Written) (spacing : Spacing) :
    ofText? (textWith spacing json) = some json := by
  have hends : Ends [] := by simp [Ends]
  have hscans := scans_textWith spacing hends scans_nil json written
  rw [List.append_nil, List.append_nil] at hscans
  have hscan : Token.scan? (textBytes (textWith spacing json)) = some (tokens json) := by
    have hall := hscans (textBytes (textWith spacing json)).length [] (Nat.le_refl _)
    rwa [List.reverse_nil, List.nil_append] at hall
  rw [ofText?, ofBytes?, toList_toUTF8]
  change (Token.scan? (textBytes (textWith spacing json))).bind ofTokens? = some json
  rw [hscan, Option.bind_some, ofTokens?_tokens]

end LoadTest.Json
