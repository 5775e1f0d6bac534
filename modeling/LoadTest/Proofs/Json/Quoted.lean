import LoadTest.Json.Token
import LoadTest.Json.Writer
import Mathlib.Tactic.SplitIfs

/-!
# LoadTest.Proofs.Json.Quoted

Texts in quotes read back. **Every text does,** whatever its characters are: the writer escapes exactly what
would end or spoil a quoted text, and the bytes of all other characters are read as they are.
-/

namespace LoadTest.Json

/-! ### Texts as bytes -/

/-- The bytes of characters. -/
def bytesOf (cs : List Char) : List UInt8 := cs.flatMap String.utf8EncodeChar

@[simp] theorem bytesOf_nil : bytesOf [] = [] := rfl

@[simp] theorem bytesOf_cons (c : Char) (cs : List Char) :
    bytesOf (c :: cs) = String.utf8EncodeChar c ++ bytesOf cs := List.flatMap_cons

@[simp] theorem bytesOf_append (a b : List Char) : bytesOf (a ++ b) = bytesOf a ++ bytesOf b :=
  List.flatMap_append

theorem toList_loop (bytes : ByteArray) (i : Nat) (seen : List UInt8) :
    ByteArray.toList.loop bytes i seen = seen.reverse ++ bytes.data.toList.drop i := by
  induction h : bytes.size - i generalizing i seen with
  | zero =>
      have hend : bytes.size ≤ i := by omega
      rw [ByteArray.toList.loop, if_neg (by omega), List.drop_eq_nil_of_le hend, List.append_nil]
  | succ n ih =>
      have hsize : i < bytes.size := by omega
      have hlt : i < bytes.data.toList.length := hsize
      rw [ByteArray.toList.loop, if_pos hsize, ih _ _ (by omega), List.drop_eq_getElem_cons hlt,
        List.reverse_cons, List.append_assoc]
      show seen.reverse ++ bytes.data[i]! :: _ = _
      rw [getElem!_pos bytes.data i hsize]
      rfl

theorem toList_toUTF8 (s : String) : s.toUTF8.toList = bytesOf s.toList := by
  have hbytes : s.toUTF8.toList = s.toByteArray.data.toList := by
    rw [String.toUTF8_eq_toByteArray, ByteArray.toList, toList_loop]
    simp
  rw [hbytes, ← String.utf8Encode_toList, List.utf8Encode, List.toList_data_toByteArray]
  rfl

theorem fromUTF8?_bytesOf (s : String) : String.fromUTF8? ⟨(bytesOf s.toList).toArray⟩ = some s := by
  have hbytes : (⟨(bytesOf s.toList).toArray⟩ : ByteArray) = s.toByteArray := by
    rw [← String.utf8Encode_toList]
    refine ByteArray.ext (Array.ext' ?_)
    rw [List.utf8Encode, List.toList_data_toByteArray]
    rfl
  rw [hbytes, String.fromUTF8?, dif_pos s.isValidUTF8]
  rfl

/-! ### Characters as bytes -/

theorem utf8EncodeChar_of_lt {c : Char} (h : c.toNat < 128) :
    String.utf8EncodeChar c = [UInt8.ofNat c.toNat] := by
  have hle : c.val.toNat ≤ 0x7f := by
    show c.toNat ≤ 127
    omega
  rw [String.utf8EncodeChar, if_pos hle]
  rfl

/-- Beyond ASCII no byte of a character is an ASCII character. -/
theorem le_of_mem_utf8EncodeChar {c : Char} {b : UInt8} (h : 128 ≤ c.toNat)
    (mem : b ∈ String.utf8EncodeChar c) : 128 ≤ b.toNat := by
  have hle : ¬ c.val.toNat ≤ 0x7f := by
    show ¬ c.toNat ≤ 127
    omega
  rw [String.utf8EncodeChar, if_neg hle] at mem
  split at mem
  · simp only [List.mem_cons, List.not_mem_nil, or_false] at mem
    rcases mem with rfl | rfl <;> simp <;> omega
  · split at mem
    · simp only [List.mem_cons, List.not_mem_nil, or_false] at mem
      rcases mem with rfl | rfl | rfl <;> simp <;> omega
    · simp only [List.mem_cons, List.not_mem_nil, or_false] at mem
      rcases mem with rfl | rfl | rfl | rfl <;> simp <;> omega

namespace Token

/-! ### Quoted characters -/

/-- The pieces that are read of a quoted character: a control character without an escape of its own is
written as a unit, and any other character is read as its bytes. -/
def piecesOf (c : Char) : List Piece :=
  if c.toNat < 32 ∧ c.toNat ∉ [8, 9, 10, 12, 13] then [.unit c.toNat]
  else (String.utf8EncodeChar c).map .byte

theorem quoted?_byte {b : UInt8} (seen : List Piece) (rest : List UInt8) (control : ¬ b < 0x20)
    (quote : b ≠ 0x22) (backslash : b ≠ 0x5C) :
    quoted? seen (b :: rest) = quoted? (.byte b :: seen) rest := by
  have hplain : ¬ (decide (b < 0x20) || b == 0x5C) = true := by
    rw [Bool.or_eq_true, decide_eq_true_eq, beq_iff_eq, not_or]
    exact ⟨control, backslash⟩
  rw [quoted?, if_neg hplain]
  · exact quote
  · exact fun _ _ _ _ _ heq _ => backslash heq
  · exact fun _ _ heq _ => backslash heq

theorem quoted?_bytes (seen : List Piece) (bytes rest : List UInt8)
    (plain : ∀ b ∈ bytes, ¬ b < 0x20 ∧ b ≠ 0x22 ∧ b ≠ 0x5C) :
    quoted? seen (bytes ++ rest) = quoted? ((bytes.map .byte).reverse ++ seen) rest := by
  induction bytes generalizing seen with
  | nil => rfl
  | cons b bytes ih =>
      obtain ⟨⟨control, quote, backslash⟩, hrest⟩ := List.forall_mem_cons.mp plain
      rw [List.cons_append, quoted?_byte seen _ control quote backslash, ih _ hrest]
      simp

theorem quoted?_unit {a b c d : UInt8} {u : Nat} (seen : List Piece) (rest : List UInt8)
    (hex : hexUnit? a b c d = some u) :
    quoted? seen (0x5C :: 0x75 :: a :: b :: c :: d :: rest) = quoted? (.unit u :: seen) rest := by
  rw [quoted?.eq_def]
  simp [hex]

theorem eq_ofNat {c : Char} {n : Nat} (h : c.toNat = n) : c = Char.ofNat n := by
  rw [← h, Char.ofNat_toNat]

/-- A control character in hexadecimal digits is read as a unit. -/
theorem quoted?_control {n : Nat} (h : n < 32) (seen : List Piece) (rest : List UInt8) :
    quoted? seen (bytesOf ['\\', 'u', '0', '0', hexChar (n / 16), hexChar n] ++ rest)
      = quoted? (.unit n :: seen) rest := by
  have hhex : ∀ n < 32, (hexChar (n / 16)).toNat < 128 ∧ (hexChar n).toNat < 128
      ∧ hexUnit? 0x30 0x30 (UInt8.ofNat (hexChar (n / 16)).toNat) (UInt8.ofNat (hexChar n).toNat) = some n := by
    decide
  obtain ⟨hhigh, hlow, hunit⟩ := hhex n h
  have hbytes : bytesOf ['\\', 'u', '0', '0', hexChar (n / 16), hexChar n]
      = [0x5C, 0x75, 0x30, 0x30, UInt8.ofNat (hexChar (n / 16)).toNat, UInt8.ofNat (hexChar n).toNat] := by
    simp only [bytesOf_cons, bytesOf_nil, utf8EncodeChar_of_lt hhigh, utf8EncodeChar_of_lt hlow]
    rfl
  rw [hbytes]
  exact quoted?_unit seen rest hunit

/-- No byte of any other character ends or spoils a quoted text. -/
theorem plain_of_mem_utf8EncodeChar {c : Char} (control : ¬ c.toNat < 32) (quote : c ≠ '"') (backslash : c ≠ '\\') :
    ∀ b ∈ String.utf8EncodeChar c, ¬ b < 0x20 ∧ b ≠ 0x22 ∧ b ≠ 0x5C := by
  intro b mem
  have hbyte : 32 ≤ b.toNat ∧ b.toNat ≠ 34 ∧ b.toNat ≠ 92 := by
    rcases Nat.lt_or_ge c.toNat 128 with hascii | hbeyond
    · rw [utf8EncodeChar_of_lt hascii, List.mem_singleton] at mem
      have hvalue : b.toNat = c.toNat := by
        rw [mem, UInt8.toNat_ofNat']
        omega
      rw [hvalue]
      exact ⟨by omega, fun h => quote (eq_ofNat h), fun h => backslash (eq_ofNat h)⟩
    · have hle := le_of_mem_utf8EncodeChar hbeyond mem
      omega
  refine ⟨fun hlt => ?_, fun heq => hbyte.2.1 (congrArg UInt8.toNat heq),
    fun heq => hbyte.2.2 (congrArg UInt8.toNat heq)⟩
  exact absurd (UInt8.lt_iff_toNat_lt.mp hlt) (Nat.not_lt.mpr hbyte.1)

/-- **A quoted character is read as its pieces.** -/
theorem quoted?_quoteChar (c : Char) (seen : List Piece) (rest : List UInt8) :
    quoted? seen (bytesOf (quoteChar c) ++ rest) = quoted? ((piecesOf c).reverse ++ seen) rest := by
  unfold quoteChar
  split_ifs with hquote hbackslash hline hreturn htab hback hfeed hcontrol
  · subst hquote
    rfl
  · subst hbackslash
    rfl
  · subst hline
    rfl
  · subst hreturn
    rfl
  · subst htab
    rfl
  · obtain rfl := eq_ofNat hback
    rfl
  · obtain rfl := eq_ofNat hfeed
    rfl
  · have hnamed : c.toNat ∉ [8, 9, 10, 12, 13] := by
      have hne : ∀ n, c ≠ Char.ofNat n → c.toNat ≠ n := fun n hc hn => hc (eq_ofNat hn)
      simp only [List.mem_cons, List.not_mem_nil, or_false, not_or]
      exact ⟨hback, hne 9 htab, hne 10 hline, hfeed, hne 13 hreturn⟩
    rw [quoted?_control hcontrol, piecesOf, if_pos ⟨hcontrol, hnamed⟩]
    rfl
  · have hplain := plain_of_mem_utf8EncodeChar hcontrol hquote hbackslash
    rw [bytesOf_cons, bytesOf_nil, List.append_nil, quoted?_bytes seen _ rest hplain, piecesOf,
      if_neg fun h => hcontrol h.1]

theorem quoted?_quoteChars (cs : List Char) (seen : List Piece) (rest : List UInt8) :
    quoted? seen (bytesOf (cs.flatMap quoteChar) ++ 0x22 :: rest)
      = some (seen.reverse ++ cs.flatMap piecesOf, rest) := by
  induction cs generalizing seen with
  | nil => simp [quoted?]
  | cons c cs ih =>
      rw [List.flatMap_cons, bytesOf_append, List.append_assoc, quoted?_quoteChar, ih]
      simp

/-! ### Pieces as texts -/

theorem pieceBytes?_bytes (bytes : List UInt8) (rest : List Piece) :
    pieceBytes? (bytes.map .byte ++ rest) = (pieceBytes? rest).map (bytes ++ ·) := by
  induction bytes with
  | nil => simp
  | cons b bytes ih =>
      rw [List.map_cons, List.cons_append, pieceBytes?, ih, Option.map_map]
      rfl

theorem pieceBytes?_piecesOf (c : Char) (rest : List Piece) :
    pieceBytes? (piecesOf c ++ rest) = (pieceBytes? rest).map (String.utf8EncodeChar c ++ ·) := by
  unfold piecesOf
  split
  · next h =>
    have hbytes : (String.singleton (Char.ofNat c.toNat)).toUTF8.toList = String.utf8EncodeChar c := by
      rw [toList_toUTF8, Char.ofNat_toNat]
      simp
    rw [List.singleton_append, pieceBytes?.eq_def]
    simp only
    rw [if_neg (by omega), if_neg (by omega), hbytes]
  · exact pieceBytes?_bytes _ rest

theorem textOf?_piecesOf (s : String) : textOf? (s.toList.flatMap piecesOf) = some s := by
  have hbytes : ∀ cs : List Char, pieceBytes? (cs.flatMap piecesOf) = some (bytesOf cs) := by
    intro cs
    induction cs with
    | nil => rfl
    | cons c cs ih =>
        rw [List.flatMap_cons, pieceBytes?_piecesOf, ih]
        rfl
  rw [textOf?, hbytes]
  exact fromUTF8?_bytesOf s

/-- **A text that was written in quotes is read back.** -/
theorem first?_quote (s : String) (rest : List UInt8) :
    first? (bytesOf (quote s).toList ++ rest) = some (.string (some s), rest) := by
  have hbytes : bytesOf (quote s).toList ++ rest
      = 0x22 :: (bytesOf (s.toList.flatMap quoteChar) ++ 0x22 :: rest) := by
    rw [quote, String.toList_ofList, bytesOf_append, bytesOf_cons, List.append_assoc, List.append_assoc]
    rfl
  rw [hbytes]
  show (quoted? [] _).map _ = _
  rw [quoted?_quoteChars]
  simp [textOf?_piecesOf]

end Token

end LoadTest.Json
