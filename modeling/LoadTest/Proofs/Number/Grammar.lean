import LoadTest.Proofs.Number.Numeral
import Mathlib.Algebra.Order.Field.Rat

/-!
# LoadTest.Proofs.Number.Grammar

The grammar of numerals. What a numeral denotes is a number with a decimal exponent, an infinity, or no number
(`Meaning`), and which texts denote it is said without reading them: a sign, digits, a point among the digits, and an
exponent, each of which may be left out as long as one digit is there (`Denotes`). **What denotes something is read as
the double nearest to that** (`Binary64.ofList?_of_denotes`), and nothing else is read (`Binary64.exists_meaning`).
-/

namespace LoadTest

namespace Numeral

/-! ### The grammar -/

/-- Nothing but digits, and perhaps none. -/
def Digits (cs : List Char) : Prop := ∀ c ∈ cs, isDigit c = true

/-- The texts of a sign; `true` for a minus. -/
inductive Sign : List Char → Bool → Prop where
  | omitted : Sign [] false
  | plus : Sign ['+'] false
  | minus : Sign ['-'] true

/-- The texts from the point on, with the digits after it. -/
inductive Fraction : List Char → List Char → Prop where
  | omitted : Fraction [] []
  | point {digits : List Char} (hdigits : Digits digits) : Fraction ('.' :: digits) digits

/-- The texts of an exponent. -/
inductive Exponent : List Char → Int → Prop where
  | omitted : Exponent [] 0
  | marked {mark : Char} {sign digits : List Char} {negative : Bool} (hmark : mark = 'e' ∨ mark = 'E')
      (hsign : Sign sign negative) (hdigits : Digits digits) (hne : digits ≠ []) :
      Exponent (mark :: (sign ++ digits)) (if negative then -(value digits : Int) else value digits)

/-- The texts of `digits * 10 ^ exponent`, without a sign. -/
inductive Magnitude : List Char → Nat → Int → Prop where
  | intro {whole point fraction ending : List Char} {e : Int} (hwhole : Digits whole)
      (hpoint : Fraction point fraction) (hne : whole ++ fraction ≠ []) (hending : Exponent ending e) :
      Magnitude (whole ++ (point ++ ending)) (value (whole ++ fraction)) (e - fraction.length)

/-- What a numeral denotes, before anything is rounded. -/
inductive Meaning where
  | nan
  | infinite (negative : Bool)
  /-- The number `digits * 10 ^ exponent`, with a sign. -/
  | decimal (negative : Bool) (digits : Nat) (exponent : Int)

/-- The texts of a meaning. -/
inductive Denotes : List Char → Meaning → Prop where
  | decimal {sign cs : List Char} {negative : Bool} {digits : Nat} {exponent : Int} (hsign : Sign sign negative)
      (hmagnitude : Magnitude cs digits exponent) : Denotes (sign ++ cs) (.decimal negative digits exponent)
  | infinite {sign word : List Char} {negative : Bool} (hsign : Sign sign negative)
      (hword : word.map lowerAscii = "inf".toList ∨ word.map lowerAscii = "infinity".toList) :
      Denotes (sign ++ word) (.infinite negative)
  | nan {sign word : List Char} {negative : Bool} (hsign : Sign sign negative)
      (hword : word.map lowerAscii = "nan".toList) : Denotes (sign ++ word) .nan

/-- The exact value; neither `nan` nor the infinities have one. -/
def Meaning.value? : Meaning → Option ℚ
  | .decimal negative digits exponent => some ((if negative then -1 else 1) * (digits * 10 ^ exponent))
  | _ => none

/-- The double nearest to what is denoted. -/
def Meaning.nearest : Meaning → Binary64
  | .nan => .nan
  | .infinite negative => .infinite negative
  | .decimal negative digits exponent => .ofDecimal negative digits exponent

variable {cs sign rest word : List Char} {negative : Bool} {digits : Nat} {e exponent : Int} {x : Binary64}

/-! ### Signs and digits -/

theorem exists_sign (cs : List Char) : ∃ sign, Sign sign (takeSign cs).1 ∧ cs = sign ++ (takeSign cs).2 := by
  unfold takeSign
  split
  · exact ⟨_, .minus, rfl⟩
  · exact ⟨_, .plus, rfl⟩
  · exact ⟨_, .omitted, rfl⟩

theorem takeSign_append (hsign : Sign sign negative) (hrest : ∀ c ∈ rest.head?, c ≠ '-' ∧ c ≠ '+') :
    takeSign (sign ++ rest) = (negative, rest) := by
  cases hsign with
  | plus => rfl
  | minus => rfl
  | omitted =>
      cases rest with
      | nil => rfl
      | cons c rest =>
          obtain ⟨hminus, hplus⟩ := hrest c rfl
          simp [takeSign, hminus, hplus]

/-- What a number without a sign begins with is no sign. -/
theorem not_sign {c : Char} (h : isDigit c = true ∨ c = '.') : c ≠ '-' ∧ c ≠ '+' := by
  constructor <;> rintro rfl <;> revert h <;> decide

/-- Digits are taken as far as they go. -/
theorem exists_digits (cs : List Char) : Digits (takeDigits cs).1 ∧ cs = (takeDigits cs).1 ++ (takeDigits cs).2 := by
  constructor
  · intro c mem
    exact List.all_eq_true.mp List.all_takeWhile c mem
  · exact List.takeWhile_append_dropWhile.symm

/-! ### Exponents -/

theorem Exponent.head (h : Exponent cs e) : ∀ c ∈ cs.head?, isDigit c = false ∧ c ≠ '.' := by
  intro c mem
  cases h with
  | omitted => cases mem
  | marked hmark _ _ _ =>
      obtain rfl := Option.some.inj mem
      rcases hmark with rfl | rfl <;> decide

theorem exponent?_eq_some_iff : exponent? cs = some e ↔ Exponent cs e := by
  constructor
  · intro h
    cases cs with
    | nil =>
        obtain rfl : 0 = e := Option.some.inj h
        exact .omitted
    | cons mark cs =>
        simp only [exponent?] at h
        split at h
        · next hmark =>
          obtain ⟨sign, hsign, hcs⟩ := exists_sign cs
          generalize takeSign cs = signed at h hsign hcs
          obtain ⟨hdigits, hrest⟩ := exists_digits signed.2
          generalize takeDigits signed.2 = taken at h hdigits hrest
          split at h
          · cases h
          · next hends =>
            obtain ⟨hne, hnil⟩ := not_or.mp hends
            rw [List.isEmpty_iff] at hne hnil
            rw [not_not.mp hnil, List.append_nil] at hrest
            rw [hcs, hrest, ← Option.some.inj h]
            exact .marked hmark hsign hdigits hne
        · cases h
  · intro h
    cases h with
    | omitted => rfl
    | @marked mark sign digits negative hmark hsign hdigits hne =>
        have hhead : ∀ c ∈ digits.head?, c ≠ '-' ∧ c ≠ '+' := by
          intro c mem
          exact not_sign (.inl (hdigits c (List.mem_of_mem_head? mem)))
        simp [exponent?, hmark, takeSign_append hsign hhead, takeDigits_self hdigits, hne]

/-! ### Numbers without a sign -/

theorem Magnitude.head (h : Magnitude cs digits exponent) :
    ∃ c rest, cs = c :: rest ∧ (isDigit c = true ∨ c = '.') := by
  obtain @⟨whole, point, fraction, ending, e, hwhole, hpoint, hne, hending⟩ := h
  cases whole with
  | cons c whole => exact ⟨c, _, rfl, .inl (hwhole c List.mem_cons_self)⟩
  | nil =>
      cases hpoint with
      | omitted => exact absurd rfl hne
      | point _ => exact ⟨'.', _, rfl, .inr rfl⟩

theorem unsigned?_of_magnitude (h : Magnitude cs digits exponent) :
    unsigned? negative cs = some (Binary64.ofDecimal negative digits exponent) := by
  obtain @⟨whole, point, fraction, ending, e, hwhole, hpoint, hne, hending⟩ := h
  have hexponent := exponent?_eq_some_iff.mpr hending
  have hends : ∀ c ∈ ending.head?, isDigit c = false := fun c mem => (hending.head c mem).1
  cases hpoint with
  | omitted =>
      have htake : takeDigits (whole ++ ending) = (whole, ending) := takeDigits_append hwhole hends
      have hpoint : ∀ rest, ending ≠ '.' :: rest := by
        rintro rest rfl
        exact (hending.head '.' rfl).2 rfl
      rw [List.append_nil] at hne
      unfold unsigned?
      rw [List.nil_append, htake]
      simp [hne, hexponent]
  | point hfraction =>
      have hpoint : ∀ c ∈ ('.' :: (fraction ++ ending)).head?, isDigit c = false := by
        intro c mem
        obtain rfl := Option.some.inj mem
        rfl
      have htake : takeDigits (whole ++ ('.' :: (fraction ++ ending))) = (whole, '.' :: (fraction ++ ending)) :=
        takeDigits_append hwhole hpoint
      have hsome : ¬ (whole = [] ∧ fraction = []) := by
        rintro ⟨rfl, rfl⟩
        exact hne rfl
      unfold unsigned?
      rw [List.cons_append, htake]
      simp only [takeDigits_append hfraction hends, List.isEmpty_iff, if_neg hsome, hexponent]
      rfl

theorem exists_magnitude (h : unsigned? negative cs = some x) :
    ∃ digits exponent, Magnitude cs digits exponent ∧ Binary64.ofDecimal negative digits exponent = x := by
  obtain ⟨hwhole, hcs⟩ := exists_digits cs
  unfold unsigned? at h
  generalize takeDigits cs = taken at h hwhole hcs
  obtain ⟨whole, rest⟩ := taken
  subst hcs
  simp only at h hwhole
  split at h
  · next rest =>
    obtain ⟨hfraction, hrest⟩ := exists_digits rest
    split at h
    · cases h
    · next hsome =>
      obtain ⟨e, he, hx⟩ := Option.bind_eq_some_iff.mp h
      have hne : whole ++ (takeDigits rest).1 ≠ [] := by
        simpa [List.isEmpty_iff] using hsome
      refine ⟨_, _, ?_, Option.some.inj hx⟩
      have hmagnitude := Magnitude.intro hwhole (.point hfraction) hne (exponent?_eq_some_iff.mp he)
      rwa [List.cons_append, ← hrest] at hmagnitude
  · split at h
    · cases h
    · next hsome =>
      obtain ⟨e, he, hx⟩ := Option.bind_eq_some_iff.mp h
      have hne : whole ++ [] ≠ [] := by
        simpa [List.isEmpty_iff] using hsome
      exact ⟨_, _, Magnitude.intro hwhole .omitted hne (exponent?_eq_some_iff.mp he), Option.some.inj hx⟩

/-! ### Words -/

theorem lowerAscii_eq_self {c : Char} (h : isDigit c = true ∨ c = '.') : lowerAscii c = c := by
  refine if_neg ?_
  rintro ⟨hupper, -⟩
  rcases h with hdigit | rfl
  · have hrange : '0' ≤ c ∧ c ≤ '9' := by simpa [isDigit] using hdigit
    exact absurd (Char.le_trans hupper hrange.2) (by decide)
  · exact absurd hupper (by decide)

/-- The words for numbers that have no digits begin with a letter. -/
theorem word_head (negative : Bool) {letter : Char} {tail : List Char} (hword : word.map lowerAscii = letter :: tail)
    (hletter : letter ∈ ['i', 'n']) :
    (∀ c ∈ word.head?, c ≠ '-' ∧ c ≠ '+') ∧ unsigned? negative word = none := by
  obtain ⟨first, rest, rfl, hfirst, -⟩ := List.map_eq_cons_iff.mp hword
  constructor
  · intro c mem
    obtain rfl := Option.some.inj mem
    constructor <;> rintro rfl <;> rw [← hfirst] at hletter <;> revert hletter <;> decide
  · refine Option.eq_none_iff_forall_ne_some.mpr ?_
    intro x hx
    obtain ⟨digits, exponent, hmagnitude, -⟩ := exists_magnitude hx
    obtain ⟨c, cs, hcs, hc⟩ := hmagnitude.head
    obtain ⟨rfl, -⟩ := List.cons.inj hcs
    rw [← hfirst, lowerAscii_eq_self hc] at hletter
    have hall : ∀ letter ∈ ['i', 'n'], ¬ (isDigit letter = true ∨ letter = '.') := by decide
    exact hall first hletter hc

end Numeral

/-! ### Reading -/

namespace Binary64

open Numeral

variable {cs : List Char} {meaning : Meaning} {x : Binary64}

/-- **What denotes something is read as the double nearest to it.** -/
theorem ofList?_of_denotes (h : Denotes cs meaning) : ofList? cs = some meaning.nearest := by
  unfold ofList?
  cases h with
  | decimal hsign hmagnitude =>
      obtain ⟨first, rest, rfl, hfirst⟩ := hmagnitude.head
      have hhead : ∀ c ∈ (first :: rest).head?, c ≠ '-' ∧ c ≠ '+' := by
        intro c mem
        exact not_sign (Option.some.inj mem ▸ hfirst)
      rw [takeSign_append hsign hhead]
      simp only [unsigned?_of_magnitude hmagnitude]
      rfl
  | @infinite sign word negative hsign hword =>
      obtain ⟨tail, htail⟩ : ∃ tail, word.map lowerAscii = 'i' :: tail := by
        rcases hword with h | h <;> exact ⟨_, h⟩
      obtain ⟨hhead, hnone⟩ := word_head negative htail (by decide)
      rw [takeSign_append hsign hhead]
      simp only [hnone, special?, if_pos hword]
      rfl
  | @nan sign word negative hsign hword =>
      obtain ⟨hhead, hnone⟩ := word_head negative hword (by decide)
      rw [takeSign_append hsign hhead]
      simp only [hnone, hword]
      rfl

/-- **What is read as a double denotes something,** and is the double nearest to that. -/
theorem exists_meaning (h : ofList? cs = some x) : ∃ meaning, Denotes cs meaning ∧ meaning.nearest = x := by
  unfold ofList? at h
  obtain ⟨sign, hsign, hcs⟩ := exists_sign cs
  generalize takeSign cs = signed at h hsign hcs
  obtain ⟨negative, rest⟩ := signed
  subst hcs
  simp only at h hsign
  split at h
  · next y hread =>
    obtain rfl := Option.some.inj h
    obtain ⟨digits, exponent, hmagnitude, hnearest⟩ := exists_magnitude hread
    exact ⟨_, .decimal hsign hmagnitude, hnearest⟩
  · unfold special? at h
    split at h
    · next hword => exact ⟨_, .infinite hsign hword, Option.some.inj h⟩
    · split at h
      · next hword => exact ⟨_, .nan hsign hword, Option.some.inj h⟩
      · cases h

end Binary64

end LoadTest
