import LoadTest.Number.Numeral
import LoadTest.Text.Blank

/-!
# LoadTest.Yaml.Word

What a scalar without quotes may mean. **Digits behind a zero are no number:** `017` is text, since some
would read it in base eight; that base is written `0o17`, and two others have marks of their own.
-/

namespace LoadTest.Yaml.Word

/-- Whether a word stands for nothing. -/
def isNull (word : String) : Bool := ["null", "Null", "NULL", "~"].contains word

/-- The truth value that a word stands for. -/
def bool? (word : String) : Option Bool :=
  if ["true", "True", "TRUE"].contains word then some true
  else if ["false", "False", "FALSE"].contains word then some false
  else none

/-- The value of a digit in some base. -/
def digit? (base : Nat) (c : Char) : Option Nat := do
  let c := Numeral.lowerAscii c
  let n := if Numeral.isDigit c then Numeral.digitValue c else c.toNat - 'a'.toNat + 10
  if (Numeral.isDigit c ∨ ('a' ≤ c ∧ c ≤ 'z')) ∧ n < base then some n else none

/-- The value of a row of digits in some base. -/
def digits? (base : Nat) (digits : List Char) : Option Nat :=
  if digits.isEmpty then none
  else digits.foldlM (fun n c => (digit? base c).map (base * n + ·)) 0

/-- The marks of the bases other than ten. -/
def bases : List (List Char × Nat) := [(['0', 'x'], 16), (['0', 'o'], 8), (['0', 'b'], 2)]

/-- The value of digits behind the mark of their base. -/
def marked? (word : List Char) : Option Nat :=
  bases.findSome? fun (mark, base) => (Text.dropHead? mark word).bind (digits? base)

/-- Whether a word is digits behind a zero. -/
def isZeroPadded (word : List Char) : Bool :=
  match (Numeral.takeSign word).2 with
  | '0' :: d :: ds => (d :: ds).all Numeral.isDigit
  | _ => false

/-- The value of digits in base ten, or in another one that is marked. -/
def unsigned? (word : List Char) : Option Nat :=
  if isZeroPadded word then none else marked? word <|> digits? 10 word

/-- The natural number that a word means, perhaps behind a plus. -/
def natural? (word : String) : Option Nat :=
  match word.toList with
  | '+' :: digits => unsigned? digits
  | digits => unsigned? digits

/-- The integer that a word means if it begins with a minus. -/
def negative? (word : String) : Option Int :=
  match word.toList with
  | '-' :: digits => (unsigned? digits).map fun n => -(n : Int)
  | _ => none

/-- The finite double that a numeral means. -/
def finite? (word : List Char) : Option Binary64 := (Binary64.ofList? word).filter Binary64.isFinite

/-- The double that a word means: a numeral, an infinity or no number. Two signs are one too many. -/
def double? (word : String) : Option Binary64 :=
  if [".inf", ".Inf", ".INF", "+.inf", "+.Inf", "+.INF"].contains word then some (.infinite false)
  else if ["-.inf", "-.Inf", "-.INF"].contains word then some (.infinite true)
  else if [".nan", ".NaN", ".NAN"].contains word then some .nan
  else
    match word.toList with
    | '+' :: c :: cs => if c = '+' ∨ c = '-' then none else finite? (c :: cs)
    | cs => finite? cs

end LoadTest.Yaml.Word
