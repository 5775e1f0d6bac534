import LoadTest.Proofs.Json.Quoted

/-!
# LoadTest.Proofs.Json.Numeral

Numerals read back, digit by digit. A numeral ends where a byte follows that could not be part of it, so what
stands behind it has to be such a byte. **Nothing is said here of values:** the numeral that was written is
the numeral that is read.
-/

namespace LoadTest.Json

/-! ### Digits -/

theorem digitChar_of_isDigit {c : Char} (h : c.isDigit = true) :
    c.toNat - '0'.toNat < 10 ∧ Nat.digitChar (c.toNat - '0'.toNat) = c := by
  have hbounds : 48 ≤ c.toNat ∧ c.toNat ≤ 57 := by
    simpa [Char.isDigit, UInt32.le_iff_toNat_le] using h
  have hall : ∀ n < 10, Nat.digitChar n = Char.ofNat (48 + n) := by decide
  have hzero : '0'.toNat = 48 := rfl
  refine ⟨by omega, ?_⟩
  rw [hall _ (by omega), hzero, Nat.add_sub_cancel' hbounds.1, Char.ofNat_toNat]

theorem digitsOf_lt {n d : Nat} (mem : d ∈ digitsOf n) : d < 10 := by
  obtain ⟨c, hc, rfl⟩ := List.mem_map.mp mem
  exact (digitChar_of_isDigit (Nat.isDigit_of_mem_toDigits (by decide) (by decide) hc)).1

theorem digitsOf_map (n : Nat) : (digitsOf n).map Nat.digitChar = Nat.toDigits 10 n := by
  rw [digitsOf, List.map_map]
  refine (List.map_congr_left fun c hc => ?_).trans (List.map_id _)
  exact (digitChar_of_isDigit (Nat.isDigit_of_mem_toDigits (by decide) (by decide) hc)).2

theorem digitsOf_ne_nil (n : Nat) : digitsOf n ≠ [] := by
  simp [digitsOf, Nat.toDigits_ne_nil]

theorem toString_eq_digitText (n : Nat) : toString n = digitText (digitsOf n) := by
  rw [digitText, digitsOf_map, Nat.toString_eq_ofList_toDigits]

theorem digitsValue_digitsOf (n : Nat) : Token.digitsValue (digitsOf n) = n := by
  calc Token.digitsValue (digitsOf n)
      _ = Nat.ofDigitChars 10 (Nat.toDigits 10 n) 0 := by
          rw [Token.digitsValue, digitsOf, List.foldl_map, Nat.ofDigitChars_eq_foldl]
      _ = n := Nat.ofDigitChars_ten_toDigits

namespace Token

theorem bytesOf_digits {ds : List Nat} (small : ∀ d ∈ ds, d < 10) :
    bytesOf (ds.map Nat.digitChar) = ds.map fun d => UInt8.ofNat (48 + d) := by
  have hall : ∀ d < 10, String.utf8EncodeChar (Nat.digitChar d) = [UInt8.ofNat (48 + d)] := by decide
  induction ds with
  | nil => rfl
  | cons d ds ih =>
      obtain ⟨hd, hds⟩ := List.forall_mem_cons.mp small
      rw [List.map_cons, bytesOf_cons, hall d hd, ih hds]
      rfl

/-- No digit follows. -/
def NoDigit (rest : List UInt8) : Prop := ∀ b ∈ rest.head?, isDigitByte b = false

theorem digits_append {ds : List Nat} {rest : List UInt8} (small : ∀ d ∈ ds, d < 10) (ends : NoDigit rest) :
    digits (bytesOf (ds.map Nat.digitChar) ++ rest) = (ds, rest) := by
  have hall : ∀ d < 10, isDigitByte (UInt8.ofNat (48 + d)) = true
      ∧ (UInt8.ofNat (48 + d)).toNat - 0x30 = d := by decide
  rw [bytesOf_digits small]
  induction ds with
  | nil =>
      cases rest with
      | nil => rfl
      | cons b rest =>
          have hb : isDigitByte b = false := ends b rfl
          simp [digits, hb]
  | cons d ds ih =>
      obtain ⟨hd, hds⟩ := List.forall_mem_cons.mp small
      obtain ⟨hdigit, hvalue⟩ := hall d hd
      have hrest := ih hds
      simp only [digits, Prod.mk.injEq] at hrest
      simp only [digits, List.map_cons, List.cons_append, List.takeWhile_cons_of_pos hdigit,
        List.dropWhile_cons_of_pos hdigit, hvalue, hrest]

/-! ### Parts of a numeral -/

/-- The characters of the fraction of a numeral. -/
def fractionChars (fraction : List Nat) : List Char :=
  if fraction.isEmpty then [] else '.' :: fraction.map Nat.digitChar

/-- The characters of the exponent of a numeral. -/
def exponentChars : Option Int → List Char
  | some e => 'e' :: (if e < 0 then '-' else '+') :: (digitsOf e.natAbs).map Nat.digitChar
  | none => []

theorem fraction?_append {fraction : List Nat} {rest : List UInt8} (small : ∀ d ∈ fraction, d < 10)
    (ends : NoDigit rest) (point : fraction = [] → ∀ b ∈ rest.head?, b ≠ 0x2E) :
    fraction? (bytesOf (fractionChars fraction) ++ rest) = some (fraction, rest) := by
  unfold fractionChars
  split
  · next hnone =>
    obtain rfl : fraction = [] := by simpa using hnone
    rw [bytesOf_nil, List.nil_append, fraction?.eq_def]
    split
    · next rest => exact absurd rfl (point rfl 0x2E rfl)
    · rfl
  · next hsome =>
    show (if (digits (bytesOf (fraction.map Nat.digitChar) ++ rest)).1.isEmpty then none
      else some (digits (bytesOf (fraction.map Nat.digitChar) ++ rest))) = _
    rw [digits_append small ends, if_neg hsome]

theorem exponent?_append {exponent : Option Int} {rest : List UInt8} (ends : NoDigit rest)
    (mark : exponent = none → ∀ b ∈ rest.head?, b ≠ 0x65 ∧ b ≠ 0x45) :
    exponent? (bytesOf (exponentChars exponent) ++ rest) = some (exponent, rest) := by
  cases exponent with
  | none =>
      cases rest with
      | nil => rfl
      | cons b rest =>
          obtain ⟨hlower, hupper⟩ := mark rfl b rfl
          simp [exponentChars, exponent?, hlower, hupper]
  | some e =>
      obtain ⟨n, hn⟩ : ∃ n, e.natAbs = n := ⟨_, rfl⟩
      have hdigits : digits (bytesOf ((digitsOf n).map Nat.digitChar) ++ rest) = (digitsOf n, rest) :=
        digits_append (fun d => digitsOf_lt) ends
      have hsome : (digitsOf n).isEmpty = false := by
        simpa using digitsOf_ne_nil n
      by_cases hnegative : e < 0
      · have hbytes : bytesOf (exponentChars (some e)) ++ rest
            = 0x65 :: 0x2D :: (bytesOf ((digitsOf n).map Nat.digitChar) ++ rest) := by
          simp only [exponentChars, if_pos hnegative, hn]
          rfl
        have he : e = -n := by omega
        rw [hbytes, he]
        simp [exponent?, hdigits, hsome, digitsValue_digitsOf]
      · have hbytes : bytesOf (exponentChars (some e)) ++ rest
            = 0x65 :: 0x2B :: (bytesOf ((digitsOf n).map Nat.digitChar) ++ rest) := by
          simp only [exponentChars, if_neg hnegative, hn]
          rfl
        have he : e = n := by omega
        rw [hbytes, he]
        simp [exponent?, hdigits, hsome, digitsValue_digitsOf]

end Token

/-! ### Numerals -/

/-- What a numeral has to be like to be written as one. -/
structure Numeral.Written (numeral : Numeral) : Prop where
  nonempty : numeral.whole ≠ []
  whole : ∀ d ∈ numeral.whole, d < 10
  /-- Only zero itself begins with a zero. -/
  zero : numeral.whole.head? = some 0 → numeral.whole.length = 1
  fraction : ∀ d ∈ numeral.fraction, d < 10

namespace Token

/-- No part of a numeral follows. -/
def Ends (rest : List UInt8) : Prop :=
  ∀ b ∈ rest.head?, isDigitByte b = false ∧ b ≠ 0x2E ∧ b ≠ 0x65 ∧ b ≠ 0x45

theorem numeral?_append {numeral : Numeral} {rest : List UInt8} (written : numeral.Written)
    (ends : Ends rest) :
    numeral? numeral.negative (bytesOf (numeral.whole.map Nat.digitChar)
      ++ (bytesOf (fractionChars numeral.fraction) ++ (bytesOf (exponentChars numeral.exponent) ++ rest)))
      = some (numeral, rest) := by
  have hrest : NoDigit rest := fun b hb => (ends b hb).1
  have hexponent : NoDigit (bytesOf (exponentChars numeral.exponent) ++ rest) := by
    cases numeral.exponent with
    | none => exact hrest
    | some e =>
        intro b hb
        obtain rfl : 0x65 = b := by simpa [exponentChars, utf8EncodeChar_of_lt] using hb
        rfl
  have hfraction : NoDigit (bytesOf (fractionChars numeral.fraction)
      ++ (bytesOf (exponentChars numeral.exponent) ++ rest)) := by
    unfold fractionChars
    split
    · exact hexponent
    · intro b hb
      obtain rfl : 0x2E = b := by simpa [utf8EncodeChar_of_lt] using hb
      rfl
  have hpoint : ∀ b ∈ (bytesOf (exponentChars numeral.exponent) ++ rest).head?, b ≠ 0x2E := by
    cases numeral.exponent with
    | none => exact fun b hb => (ends b hb).2.1
    | some e =>
        intro b hb
        obtain rfl : 0x65 = b := by simpa [exponentChars, utf8EncodeChar_of_lt] using hb
        decide
  have hbad : ¬ (numeral.whole.isEmpty = true ∨ numeral.whole.head? = some 0 ∧ numeral.whole.length ≠ 1) := by
    rintro (hnone | ⟨hzero, hlong⟩)
    · exact written.nonempty (by simpa using hnone)
    · exact hlong (written.zero hzero)
  unfold numeral?
  rw [digits_append written.whole hfraction]
  simp only
  rw [if_neg hbad, fraction?_append written.fraction hexponent fun _ => hpoint]
  simp only [Option.bind_eq_bind, Option.bind_some]
  rw [exponent?_append hrest fun _ b hb => (ends b hb).2.2]
  rfl

theorem toList_exponent (e : Int) :
    ((if e < 0 then "e" else "e+") ++ toString e).toList = exponentChars (some e) := by
  cases e with
  | ofNat n =>
      have hpositive : ¬ (Int.ofNat n < 0) := by simp
      simp only [exponentChars, if_neg hpositive]
      show ("e+" ++ toString n).toList = _
      rw [toString_eq_digitText]
      simp [digitText]
  | negSucc n =>
      have hnegative : Int.negSucc n < 0 := Int.negSucc_lt_zero n
      simp only [exponentChars, if_pos hnegative]
      show ("e" ++ ("-" ++ toString (n + 1))).toList = _
      rw [toString_eq_digitText]
      simp [digitText]

theorem toList_text (numeral : Numeral) :
    numeral.text.toList = (if numeral.negative then ['-'] else []) ++ (numeral.whole.map Nat.digitChar
      ++ (fractionChars numeral.fraction ++ exponentChars numeral.exponent)) := by
  obtain ⟨negative, whole, fraction, exponent⟩ := numeral
  have hsign : (if negative then "-" else "").toList = if negative then ['-'] else [] := by
    cases negative <;> rfl
  have hfraction : (if fraction.isEmpty then "" else "." ++ digitText fraction).toList
      = fractionChars fraction := by
    unfold fractionChars
    split <;> simp [digitText]
  rw [Numeral.text, String.toList_append, String.toList_append, String.toList_append, hsign, hfraction]
  cases exponent with
  | none => simp [digitText, exponentChars]
  | some e => simp only [toList_exponent, digitText, String.toList_ofList, List.append_assoc]

/-- **A numeral that was written is read back,** if nothing follows that could be part of it. -/
theorem first?_numeral {numeral : Numeral} {rest : List UInt8} (written : numeral.Written)
    (ends : Ends rest) :
    first? (bytesOf numeral.text.toList ++ rest) = some (.number numeral, rest) := by
  have hnumeral := numeral?_append written ends
  rw [toList_text, bytesOf_append, bytesOf_append, bytesOf_append, List.append_assoc, List.append_assoc,
    List.append_assoc]
  cases hnegative : numeral.negative with
  | true =>
      rw [hnegative] at hnumeral
      have hminus : bytesOf (if true then ['-'] else []) = [0x2D] := rfl
      rw [hminus, List.singleton_append]
      show (numeral? true _).map _ = _
      rw [hnumeral]
      rfl
  | false =>
      rw [hnegative] at hnumeral
      obtain ⟨d, ds, hwhole⟩ := List.exists_cons_of_ne_nil written.nonempty
      have hd : d < 10 := written.whole d (by rw [hwhole]; exact List.mem_cons_self)
      have hnothing : bytesOf (if false then ['-'] else []) = [] := rfl
      rw [hnothing, List.nil_append]
      generalize htail : bytesOf (fractionChars numeral.fraction)
        ++ (bytesOf (exponentChars numeral.exponent) ++ rest) = tail at hnumeral ⊢
      have hfirst : first? (bytesOf (numeral.whole.map Nat.digitChar) ++ tail)
          = (numeral? false (bytesOf (numeral.whole.map Nat.digitChar) ++ tail)).map
            fun read => (.number read.1, read.2) := by
        rw [bytesOf_digits written.whole, hwhole, List.map_cons, List.cons_append]
        -- A digit begins no other token.
        have hdigit : ∀ d < 10, UInt8.ofNat (48 + d) ∉ [0x5B, 0x5D, 0x7B, 0x7D, 0x2C, 0x3A, 0x6E, 0x74, 0x66,
          0x22, 0x2D] := by decide
        have hfresh := hdigit d hd
        generalize UInt8.ofNat (48 + d) = b at hfresh ⊢
        rw [first?.eq_def]
        split <;> simp_all
      rw [hfirst, hnumeral]
      rfl

end Token

/-! ### Numerals of numbers -/

/-- Only zero begins with a zero. -/
theorem head?_toDigits (n : Nat) (h : (Nat.toDigits 10 n).head? = some '0') : n = 0 := by
  induction n using Nat.strongRecOn with
  | ind n ih =>
      rw [Nat.toDigits_eq_if (by decide)] at h
      split at h
      · simpa using h
      · next hlarge =>
        obtain ⟨c, cs, hdigits⟩ := List.exists_cons_of_ne_nil (Nat.toDigits_ne_nil (n := n / 10) (b := 10))
        rw [hdigits, List.cons_append, List.head?_cons] at h
        have hzero := ih (n / 10) (by omega) (by rw [hdigits, List.head?_cons, h])
        omega

theorem head?_digitsOf {n : Nat} (h : (digitsOf n).head? = some 0) : n = 0 := by
  refine head?_toDigits n ?_
  rw [← digitsOf_map, List.head?_map, h]
  rfl

theorem written_ofInt (i : Int) : Numeral.Written ⟨decide (i < 0), digitsOf i.natAbs, [], none⟩ := by
  refine ⟨digitsOf_ne_nil _, fun d => digitsOf_lt, fun hzero => ?_, by simp⟩
  have hnone : i.natAbs = 0 := head?_digitsOf hzero
  show (digitsOf i.natAbs).length = 1
  rw [hnone]
  rfl

/-- The digits found for a positive double are not those of zero. -/
theorem shortest_ne_zero {units : Nat} (h : units ≠ 0) : (Binary64.shortest units).digits ≠ 0 := by
  have hread : ∀ d : Binary64.Decimal, Binary64.ReadsBack units d → d.digits ≠ 0 := by
    intro d reads hzero
    rw [Binary64.ReadsBack, Binary64.ofDecimal, if_pos hzero] at reads
    have hunits : (0 : Int) = units := Option.some.inj reads
    omega
  have hgetD : ∀ found : Option Binary64.Decimal, (∀ d, found = some d → d.digits ≠ 0) →
      (found.getD (Binary64.exactDecimal units)).digits ≠ 0 := by
    intro found each
    cases found with
    | none =>
        have hexact : ∀ n, units * Nat.pow 5 n ≠ 0 := fun n =>
          Nat.mul_ne_zero h (Nat.ne_of_gt (Nat.pow_pos (by decide)))
        exact hexact 1074
    | some d => exact each d rfl
  refine hgetD _ fun d hfound => ?_
  obtain ⟨i, -, hfind⟩ := List.exists_of_findSome?_eq_some hfound
  have hreads := List.find?_some hfind
  exact hread d (of_decide_eq_true hreads)

/-- The digits of a positive double: some digits of which the first is not zero. -/
theorem significant_eq {d : Binary64.Decimal} (h : d.digits ≠ 0) :
    ∃ c cs, (Binary64.significant d).1 = c :: cs ∧ c ≠ '0' ∧ ∀ c' ∈ c :: cs, c'.isDigit = true := by
  have hdigits : ∀ c ∈ Nat.toDigits 10 d.digits, c.isDigit = true :=
    fun c => Nat.isDigit_of_mem_toDigits (by decide) (by decide)
  have hhead : (Nat.toDigits 10 d.digits).head? ≠ some '0' := fun hzero => h (head?_toDigits _ hzero)
  obtain ⟨c, cs, hall⟩ := List.exists_cons_of_ne_nil (Nat.toDigits_ne_nil (n := d.digits) (b := 10))
  rw [hall] at hdigits hhead
  have hc : c ≠ '0' := by simpa using hhead
  have hkept : (Binary64.significant d).1 = c :: (cs.reverse.dropWhile (· = '0')).reverse := by
    show ((Nat.toDigits 10 d.digits).reverse.dropWhile (· = '0')).reverse = _
    rw [hall, List.reverse_cons, List.dropWhile_append]
    split
    · next hnone =>
      have hnil : cs.reverse.dropWhile (· = '0') = [] := by simpa using hnone
      rw [hnil, List.dropWhile_cons_of_neg (by simpa using hc)]
      rfl
    · simp
  refine ⟨c, _, hkept, hc, fun c' mem => hdigits c' ?_⟩
  rcases List.mem_cons.mp mem with rfl | mem
  · exact List.mem_cons_self
  · refine List.mem_cons_of_mem _ (List.mem_reverse.mp ?_)
    exact (List.dropWhile_sublist _).subset (List.mem_reverse.mp mem)

/-- The digits that are kept, as numbers. -/
theorem significant_digits {d : Binary64.Decimal} (h : d.digits ≠ 0) :
    ∃ first others, (Binary64.significant d).1.map (fun c => c.toNat - '0'.toNat) = first :: others
      ∧ first ≠ 0 ∧ ∀ n ∈ first :: others, n < 10 := by
  obtain ⟨c, cs, hkept, hc, hdigit⟩ := significant_eq h
  have hsmall : ∀ n ∈ (c :: cs).map (fun c => c.toNat - '0'.toNat), n < 10 :=
    List.forall_mem_map.mpr fun c' mem => (digitChar_of_isDigit (hdigit c' mem)).1
  refine ⟨_, _, by rw [hkept, List.map_cons], fun hzero => ?_, hsmall⟩
  have hchar := (digitChar_of_isDigit (hdigit c List.mem_cons_self)).2
  rw [show c.toNat - '0'.toNat = 0 from hzero] at hchar
  exact hc hchar.symm

/-- **Whatever is written of a double is a numeral.** -/
theorem written_ofDouble {x : Binary64} {numeral : Numeral} (h : ofDouble x = .number numeral) :
    numeral.Written := by
  cases x with
  | nan => cases h
  | infinite negative => cases h
  | finite negative units representable =>
      simp only [ofDouble] at h
      by_cases hunits : units = 0
      · rw [if_pos hunits] at h
        cases h
        exact ⟨by simp, by simp, fun _ => rfl, by simp⟩
      · rw [if_neg hunits] at h
        obtain ⟨first, others, hkept, hfirst, hds⟩ := significant_digits (shortest_ne_zero hunits)
        simp only [ofDecimal, hkept] at h
        split at h
        · split at h
          · cases h
            refine ⟨by simp, by simp, fun _ => rfl, fun d mem => ?_⟩
            rcases List.mem_append.mp mem with mem | mem
            · rw [List.eq_of_mem_replicate mem]
              decide
            · exact hds d mem
          · next hplace =>
            obtain ⟨n, hn⟩ : ∃ n, (Binary64.significant (Binary64.shortest units)).2.toNat = n + 1 :=
              ⟨_, (Nat.succ_pred_eq_of_pos (by omega)).symm⟩
            rw [hn] at h
            cases h
            refine ⟨by simp, fun d mem => ?_, fun hzero => absurd (by simpa using hzero) hfirst, fun d mem => ?_⟩
            · rcases List.mem_append.mp mem with mem | mem
              · exact hds d (List.mem_of_mem_take mem)
              · rw [List.eq_of_mem_replicate mem]
                decide
            · split at mem
              · rw [List.mem_singleton.mp mem]
                decide
              · exact hds d (List.mem_of_mem_drop mem)
        · cases h
          refine ⟨by simp, fun d mem => hds d (List.mem_of_mem_take mem), fun _ => by simp,
            fun d mem => hds d (List.mem_of_mem_drop mem)⟩

end LoadTest.Json
