import LoadTest.Proofs.Json.Numeral
import LoadTest.Proofs.Number.Decimal
import LoadTest.Proofs.Text.Blank

/-!
# LoadTest.Proofs.Number.Numeral

Numerals and the texts of doubles. **Every finite double is read back from its positional text**
(`ofList?_plainText`), since the digits are those of a decimal number that reads back, and zeros and points
only move a power of ten. Numerals have an alphabet of their own (`mem_alphabet_of_ofList?`): neither blanks nor
signs of comparison nor parentheses occur in them.
-/

namespace LoadTest

namespace Numeral

/-! ### Rows of digits -/

theorem isDigit_eq (c : Char) : isDigit c = c.isDigit := by
  rw [isDigit, Char.isDigit]
  rfl

theorem value_from (ds : List Char) (n : Nat) :
    ds.foldl (fun n c => 10 * n + digitValue c) n = n * 10 ^ ds.length + value ds := by
  induction ds generalizing n with
  | nil => simp [value]
  | cons c cs ih =>
      simp only [value, List.foldl_cons, List.length_cons]
      rw [ih, ih (10 * 0 + digitValue c)]
      ring

theorem value_append (ds es : List Char) : value (ds ++ es) = value ds * 10 ^ es.length + value es := by
  rw [value, List.foldl_append, value_from]
  rfl

theorem value_zeros (n : Nat) : value (List.replicate n '0') = 0 := by
  induction n with
  | zero => rfl
  | succ n ih =>
      rw [List.replicate_succ', value_append, ih, Nat.zero_mul]
      rfl

theorem value_toDigits (n : Nat) : value (Nat.toDigits 10 n) = n := by
  calc value (Nat.toDigits 10 n)
      _ = Nat.ofDigitChars 10 (Nat.toDigits 10 n) 0 := by
          rw [value, Nat.ofDigitChars_eq_foldl]
          rfl
      _ = n := Nat.ofDigitChars_ten_toDigits

/-! ### Reading rows of digits -/

theorem takeDigits_append {ds rest : List Char} (digits : ∀ c ∈ ds, isDigit c = true)
    (ends : ∀ c ∈ rest.head?, isDigit c = false) : takeDigits (ds ++ rest) = (ds, rest) := by
  induction ds with
  | nil =>
      cases rest with
      | nil => rfl
      | cons c rest =>
          have hc : isDigit c = false := ends c rfl
          simp [takeDigits, hc]
  | cons d ds ih =>
      obtain ⟨hd, hds⟩ := List.forall_mem_cons.mp digits
      have hrest := ih hds
      simp only [takeDigits, Prod.mk.injEq] at hrest
      simp [takeDigits, hd, hrest]

theorem takeDigits_self {ds : List Char} (digits : ∀ c ∈ ds, isDigit c = true) : takeDigits ds = (ds, []) := by
  have htake : takeDigits (ds ++ []) = (ds, []) := takeDigits_append digits (by simp)
  rwa [List.append_nil] at htake

/-- A row of digits is a whole number. -/
theorem unsigned?_digits (negative : Bool) {ds : List Char} (hne : ds ≠ [])
    (digits : ∀ c ∈ ds, isDigit c = true) :
    unsigned? negative ds = some (Binary64.ofDecimal negative (value ds) 0) := by
  unfold unsigned?
  simp [takeDigits_self digits, hne, exponent?]

/-- A row of digits with a point in it is as many tenths as digits follow the point. -/
theorem unsigned?_point (negative : Bool) {ds es : List Char} (hne : ds ≠ [])
    (digits : ∀ c ∈ ds, isDigit c = true) (fraction : ∀ c ∈ es, isDigit c = true) :
    unsigned? negative (ds ++ '.' :: es)
      = some (Binary64.ofDecimal negative (value (ds ++ es)) (0 - (es.length : Int))) := by
  have hpoint : ∀ c ∈ ('.' :: es).head?, isDigit c = false := by
    intro c hc
    obtain rfl : '.' = c := Option.some.inj hc
    rfl
  have hwhole : takeDigits (ds ++ '.' :: es) = (ds, '.' :: es) := takeDigits_append digits hpoint
  unfold unsigned?
  simp [hwhole, takeDigits_self fraction, hne, exponent?]

/-- What is read as a numeral without a sign has none. -/
theorem takeSign_of_unsigned? {negative : Bool} {cs : List Char} {x : Binary64}
    (h : unsigned? negative cs = some x) : takeSign cs = (false, cs) := by
  unfold takeSign
  split
  · simp [unsigned?, takeDigits, isDigit] at h
  · simp [unsigned?, takeDigits, isDigit] at h
  · rfl

/-! ### The alphabet -/

/-- The characters of numerals, the words for numbers without digits included. -/
def alphabet : List Char := "+-.0123456789AEFINTYaefinty".toList

theorem mem_alphabet_of_isDigit {c : Char} (h : isDigit c = true) : c ∈ alphabet := by
  rw [isDigit_eq] at h
  obtain ⟨hlt, hchar⟩ := Json.digitChar_of_isDigit h
  have hall : ∀ n < 10, Nat.digitChar n ∈ alphabet := by decide
  exact hchar ▸ hall _ hlt

theorem mem_alphabet_of_takeSign {cs : List Char} (h : ∀ c ∈ (takeSign cs).2, c ∈ alphabet) :
    ∀ c ∈ cs, c ∈ alphabet := by
  unfold takeSign at h
  split at h
  · exact List.forall_mem_cons.mpr ⟨by decide, h⟩
  · exact List.forall_mem_cons.mpr ⟨by decide, h⟩
  · exact h

theorem mem_alphabet_of_takeDigits {cs : List Char} (h : ∀ c ∈ (takeDigits cs).2, c ∈ alphabet) :
    ∀ c ∈ cs, c ∈ alphabet := by
  have hdigits : ∀ c ∈ cs.takeWhile isDigit, c ∈ alphabet := by
    intro c mem
    exact mem_alphabet_of_isDigit (List.all_eq_true.mp List.all_takeWhile c mem)
  have happend := List.forall_mem_append.mpr ⟨hdigits, h⟩
  rwa [takeDigits, List.takeWhile_append_dropWhile] at happend

theorem mem_alphabet_of_exponent? {cs : List Char} {e : Int} (h : exponent? cs = some e) :
    ∀ c ∈ cs, c ∈ alphabet := by
  cases cs with
  | nil => simp
  | cons mark cs =>
      unfold exponent? at h
      simp only at h
      split at h
      · next hmark =>
        split at h
        · cases h
        · next hrest =>
          -- After the digits of the exponent nothing is left.
          have hnil : (takeDigits (takeSign cs).2).2 = [] := by
            simpa using (not_or.mp hrest).2
          have hmark' : mark ∈ alphabet := by
            rcases hmark with rfl | rfl <;> decide
          refine List.forall_mem_cons.mpr ⟨hmark', ?_⟩
          refine mem_alphabet_of_takeSign (mem_alphabet_of_takeDigits ?_)
          rw [hnil]
          exact List.forall_mem_nil _
      · cases h

theorem mem_alphabet_of_unsigned? {negative : Bool} {cs : List Char} {x : Binary64}
    (h : unsigned? negative cs = some x) : ∀ c ∈ cs, c ∈ alphabet := by
  refine mem_alphabet_of_takeDigits ?_
  unfold unsigned? at h
  generalize takeDigits cs = taken at h ⊢
  obtain ⟨whole, rest⟩ := taken
  simp only at h ⊢
  split at h
  · next rest hpoint =>
    split at h
    · cases h
    · obtain ⟨e, he, -⟩ := Option.bind_eq_some_iff.mp h
      exact List.forall_mem_cons.mpr ⟨by decide, mem_alphabet_of_takeDigits (mem_alphabet_of_exponent? he)⟩
  · split at h
    · cases h
    · obtain ⟨e, he, -⟩ := Option.bind_eq_some_iff.mp h
      exact mem_alphabet_of_exponent? he

/-- The letters of which a small one is the lower case. -/
theorem eq_of_lowerAscii {c d : Char} (h : lowerAscii c = d) : c = d ∨ c.toNat + 32 = d.toNat := by
  unfold lowerAscii at h
  split at h
  · next hupper =>
    right
    have hbounds : c.toNat ≤ 90 := by
      simpa [Char.le_def, UInt32.le_iff_toNat_le] using hupper.2
    have hvalid : (c.toNat + 32).isValidChar := .inl (by omega)
    rw [← h, Char.ofNat, dif_pos hvalid]
    rfl
  · exact .inl h

theorem mem_alphabet_of_special? {negative : Bool} {cs : List Char} {x : Binary64}
    (h : special? negative (cs.map lowerAscii) = some x) : ∀ c ∈ cs, c ∈ alphabet := by
  have hletter : ∀ d ∈ "infinity".toList ++ "nan".toList, d ∈ alphabet ∧ Char.ofNat (d.toNat - 32) ∈ alphabet := by
    decide
  intro c mem
  have hlower : lowerAscii c ∈ cs.map lowerAscii := List.mem_map_of_mem mem
  have hword : lowerAscii c ∈ "infinity".toList ++ "nan".toList := by
    unfold special? at h
    split at h
    · next hinfinite =>
      rcases hinfinite with hword | hword
      · rw [hword] at hlower
        exact List.mem_append_left _ ((by decide : "inf".toList ⊆ "infinity".toList) hlower)
      · exact List.mem_append_left _ (hword ▸ hlower)
    · split at h
      · next hnan => exact List.mem_append_right _ (hnan ▸ hlower)
      · cases h
  rcases eq_of_lowerAscii (c := c) rfl with heq | hnat
  · exact heq ▸ (hletter _ hword).1
  · have hchar : Char.ofNat ((lowerAscii c).toNat - 32) = c := by
      rw [← hnat, Nat.add_sub_cancel, Char.ofNat_toNat]
    exact hchar ▸ (hletter _ hword).2

end Numeral

namespace Binary64

open Numeral Text

/-- A numeral has no characters but those of its alphabet. -/
theorem mem_alphabet_of_ofList? {cs : List Char} {x : Binary64} (h : ofList? cs = some x) :
    ∀ c ∈ cs, c ∈ alphabet := by
  refine mem_alphabet_of_takeSign ?_
  unfold ofList? at h
  simp only at h
  split at h
  · next hunsigned => exact mem_alphabet_of_unsigned? hunsigned
  · exact mem_alphabet_of_special? h

theorem not_blank_of_ofList? {numeral : List Char} {x : Binary64} (h : ofList? numeral = some x) :
    ∀ c ∈ numeral, isBlank c = false := by
  have hall : ∀ c ∈ alphabet, isBlank c = false := by decide
  intro c mem
  exact hall c (mem_alphabet_of_ofList? h c mem)

theorem ne_nil_of_ofList? {numeral : List Char} {x : Binary64} (h : ofList? numeral = some x) : numeral ≠ [] := by
  rintro rfl
  cases h

/-- A numeral is found again between blanks. -/
theorem trimList_numeral {numeral before after : List Char} {x : Binary64} (hbefore : Blanks before)
    (hafter : Blanks after) (h : ofList? numeral = some x) : trimList (before ++ numeral ++ after) = numeral :=
  trimList_padding hbefore hafter (trimmed_of_all (not_blank_of_ofList? h))

/-! ### Positional texts -/

/-- The digits that are shown, with the place of the point, are the number. -/
theorem significant_value (negative : Bool) {d : Decimal} {ds : List Char} {place : Int}
    (h : significant d = (ds, place)) :
    ofDecimal negative (value ds) (place - ds.length) = ofDecimal negative d.digits d.exponent := by
  obtain ⟨hds, hplace⟩ := Prod.mk.inj h
  -- What was cut off at the end is a row of zeros.
  obtain ⟨zeros, hzeros⟩ : ∃ n, Nat.toDigits 10 d.digits = ds ++ List.replicate n '0' := by
    have hsplit := List.takeWhile_append_dropWhile (p := (· = '0')) (l := (Nat.toDigits 10 d.digits).reverse)
    have htake : ∀ c ∈ (Nat.toDigits 10 d.digits).reverse.takeWhile (· = '0'), c = '0' := by
      intro c mem
      simpa using List.all_eq_true.mp List.all_takeWhile c mem
    refine ⟨((Nat.toDigits 10 d.digits).reverse.takeWhile (· = '0')).length, ?_⟩
    rw [← hds, ← List.reverse_inj, List.reverse_append, List.reverse_reverse, List.reverse_replicate,
      ← List.eq_replicate_of_mem htake]
    exact hsplit.symm
  have hvalue : d.digits = value ds * 10 ^ zeros := by
    rw [← value_toDigits d.digits, hzeros, value_append, value_zeros, List.length_replicate, Nat.add_zero]
  have hexponent : place - ds.length = d.exponent + zeros := by
    rw [← hplace, hzeros, List.length_append, List.length_replicate]
    omega
  rw [hexponent, hvalue, ← ofDecimal_mul_pow negative (value ds) zeros, Int.add_sub_cancel]

theorem isDigit_of_mem_zeros {n : Nat} : ∀ c ∈ List.replicate n '0', isDigit c = true := by
  intro c mem
  rw [List.eq_of_mem_replicate mem]
  rfl

/-- Zeros between a point and the digits after it make a number of less than one. -/
theorem unsigned?_below (negative : Bool) {ds : List Char} (zeros : Nat) (digits : ∀ c ∈ ds, isDigit c = true) :
    unsigned? negative ("0.".toList ++ List.replicate zeros '0' ++ ds)
      = some (ofDecimal negative (value ds) (-zeros - ds.length)) := by
  have hfraction : ∀ c ∈ List.replicate zeros '0' ++ ds, isDigit c = true :=
    List.forall_mem_append.mpr ⟨isDigit_of_mem_zeros, digits⟩
  have hread := unsigned?_point negative (List.cons_ne_nil '0' []) (by simp [isDigit]) hfraction
  have hvalue : value ('0' :: (List.replicate zeros '0' ++ ds)) = value ds := by
    rw [← List.cons_append, ← List.replicate_succ, value_append, value_zeros, Nat.zero_mul, Nat.zero_add]
  have hexponent : 0 - ((List.replicate zeros '0' ++ ds).length : Int) = -zeros - ds.length := by
    rw [List.length_append, List.length_replicate]
    omega
  rw [List.append_assoc]
  refine Eq.trans hread ?_
  rw [List.singleton_append, hvalue, hexponent]

/-- Zeros after digits move their places. -/
theorem unsigned?_padded (negative : Bool) {ds : List Char} (hne : ds ≠ []) (digits : ∀ c ∈ ds, isDigit c = true)
    (zeros : Nat) : unsigned? negative (ds ++ List.replicate zeros '0')
      = some (ofDecimal negative (value ds) zeros) := by
  have hpadded : ds ++ List.replicate zeros '0' ≠ [] := List.append_ne_nil_of_left_ne_nil hne _
  have hdigits : ∀ c ∈ ds ++ List.replicate zeros '0', isDigit c = true :=
    List.forall_mem_append.mpr ⟨digits, isDigit_of_mem_zeros⟩
  have hmoved := ofDecimal_mul_pow negative (value ds) zeros zeros
  rw [Int.sub_self] at hmoved
  rw [unsigned?_digits negative hpadded hdigits, value_append, value_zeros, List.length_replicate, Nat.add_zero,
    hmoved]

/-- Digits with a point among them. -/
theorem unsigned?_inside (negative : Bool) {ds : List Char} {n : Nat} (digits : ∀ c ∈ ds, isDigit c = true)
    (hpos : 0 < n) (hlt : n < ds.length) : unsigned? negative (ds.take n ++ '.' :: ds.drop n)
      = some (ofDecimal negative (value ds) (n - ds.length)) := by
  have hne : ds.take n ≠ [] := by
    rw [Ne, List.take_eq_nil_iff]
    exact not_or.mpr ⟨hpos.ne', List.ne_nil_of_length_pos (hpos.trans hlt)⟩
  have hwhole : ∀ c ∈ ds.take n, isDigit c = true := fun c mem => digits c (List.mem_of_mem_take mem)
  have hfraction : ∀ c ∈ ds.drop n, isDigit c = true := fun c mem => digits c (List.mem_of_mem_drop mem)
  have hexponent : 0 - ((ds.drop n).length : Int) = n - ds.length := by
    rw [List.length_drop]
    omega
  rw [unsigned?_point negative hne hwhole hfraction, List.take_append_drop, hexponent]

/-- **A row of digits with its point somewhere is read as that number.** -/
theorem unsigned?_positional (negative : Bool) {ds : List Char} (place : Int) (hne : ds ≠ [])
    (digits : ∀ c ∈ ds, isDigit c = true) : unsigned? negative (positional false ds place).toList
      = some (ofDecimal negative (value ds) (place - ds.length)) := by
  unfold positional
  split
  · next hsmall =>
    have hplace : place = -((-place).toNat : Int) := by omega
    rw [String.toList_ofList, unsigned?_below negative _ digits, ← hplace]
  · next hlarge =>
    simp only
    split
    · next hwhole =>
      have hplace : ((place.toNat - ds.length : Nat) : Int) = place - ds.length := by omega
      rw [if_neg Bool.false_ne_true, String.append_empty, String.toList_ofList,
        unsigned?_padded negative hne digits, hplace]
    · next hinside =>
      have hplace : (place.toNat : Int) = place := by omega
      rw [String.toList_ofList, unsigned?_inside negative digits (by omega) (by omega), hplace]

/-- The digits of a double that is not zero. -/
theorem exists_significant {units : Nat} (h : units ≠ 0) : ∃ ds place,
    significant (shortest units) = (ds, place) ∧ ds ≠ [] ∧ ∀ c ∈ ds, isDigit c = true := by
  obtain ⟨c, cs, hkept, -, hdigits⟩ := Json.significant_eq (Json.shortest_ne_zero h)
  refine ⟨c :: cs, (significant (shortest units)).2, by rw [← hkept], List.cons_ne_nil c cs, ?_⟩
  intro c' mem
  rw [isDigit_eq]
  exact hdigits c' mem

theorem unsigned?_magnitude (negative : Bool) {units : Nat} (h : Representable units) :
    unsigned? negative (Layout.plain.magnitude units).toList = some (.finite negative units h) := by
  unfold Layout.magnitude
  split
  · next hzero =>
    subst hzero
    have hdigit : ∀ c ∈ ['0'], isDigit c = true := by decide
    exact unsigned?_digits negative (List.cons_ne_nil '0' []) hdigit
  · next hpositive =>
    obtain ⟨ds, place, hsignificant, hne, hdigits⟩ := exists_significant hpositive
    rw [hsignificant]
    refine (unsigned?_positional negative place hne hdigits).trans ?_
    rw [significant_value negative hsignificant, ofDecimal_of_readsBack h (readsBack_shortest h)]

/-- **Every finite double is read back from its text.** -/
theorem ofList?_plainText {x : Binary64} (h : x.isFinite = true) : ofList? x.plainText.toList = some x := by
  cases x with
  | nan => cases h
  | infinite => cases h
  | finite negative units representable =>
      have hread : ∀ negative, unsigned? negative (Layout.plain.magnitude units).toList
          = some (.finite negative units representable) := by
        intro negative
        exact unsigned?_magnitude negative representable
      have htext : (Binary64.finite negative units representable).plainText.toList
          = (if negative then "-" else "").toList ++ (Layout.plain.magnitude units).toList :=
        String.toList_append
      unfold ofList?
      rw [htext]
      cases negative with
      | true =>
          have hsign : takeSign ((if true = true then "-" else "").toList ++ (Layout.plain.magnitude units).toList)
              = (true, (Layout.plain.magnitude units).toList) := rfl
          rw [hsign]
          simp only [hread]
      | false =>
          have hsign := takeSign_of_unsigned? (hread false)
          simp only [Bool.false_eq_true, if_false, String.toList_empty, List.nil_append, hsign, hread]

end Binary64

end LoadTest
