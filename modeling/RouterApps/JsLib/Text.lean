/-
# JsLib.Text -- texts, and the numbers they are read as

A text is a list of characters.  (JavaScript has code units of 16 bits; the functions here look at characters that
are one unit each.)

There are two readers.  `parseInt` takes the number at the front and does not look at the rest; leading zeros do not
make it octal.  `toNumber` is the conversion that `Number`, `isNaN`, `==` with a number and the operators use: the text
has to be a literal as a whole, but the literal may have a point, an exponent or a radix, and an empty text is 0.
They agree on a text of digits (`Denotes.parseInt`, `Denotes.toNumber`), and hardly anywhere else.
-/
import RouterApps.JsLib.Number

namespace RouterApps.JsLib

open List

abbrev Text := List Char

/-! ## Readers -/

/-- White space and line ends. -/
def isSpace (c : Char) : Bool :=
  (9 ≤ c.toNat && c.toNat ≤ 13) || (0x2000 ≤ c.toNat && c.toNat ≤ 0x200A) ||
    c.toNat ∈ [0x20, 0xA0, 0x1680, 0x2028, 0x2029, 0x202F, 0x205F, 0x3000, 0xFEFF]

def trim (t : Text) : Text := (t.dropWhile isSpace).rdropWhile isSpace

/-- The sign in front, and the rest. -/
def sign : Text → Bool × Text
  | '-' :: rest => (true, rest)
  | '+' :: rest => (false, rest)
  | rest => (false, rest)

def digitValue (c : Char) : ℕ :=
  if c.isDigit then c.toNat - '0'.toNat else if c.isLower then c.toNat - 'a'.toNat + 10 else c.toNat - 'A'.toNat + 10

def isDigitOf (radix : ℕ) (c : Char) : Bool := c.isAlphanum && digitValue c < radix

def readRadix (radix : ℕ) (digits : Text) : ℕ := digits.foldl (fun sum c => radix * sum + digitValue c) 0

/-- The radix that `0x`, `0o` or `0b` stands for, and the rest. -/
def radixMark : Text → Option (ℕ × Text)
  | '0' :: mark :: rest =>
    if mark = 'x' || mark = 'X' then some (16, rest)
    else if mark = 'o' || mark = 'O' then some (8, rest)
    else if mark = 'b' || mark = 'B' then some (2, rest)
    else none
  | _ => none

/-- `parseInt(t)` -/
def parseInt (t : Text) : Number :=
  let body := sign (t.dropWhile isSpace)
  match radixMark body.2 with
  | some (16, rest) =>
    let digits := rest.takeWhile (isDigitOf 16)
    if digits = [] then .nan else .ofRat body.1 (readRadix 16 digits)
  | _ =>
    let digits := body.2.takeWhile Char.isDigit
    if digits = [] then .nan else .ofRat body.1 (Nat.ofDigitChars 10 digits 0)

/-- What stands behind the digits of a literal: nothing, or an exponent. -/
def exponentPart : Text → Option ℤ
  | [] => some 0
  | mark :: rest =>
    let body := sign rest
    if (mark = 'e' || mark = 'E') && body.2 ≠ [] && body.2.all Char.isDigit then
      some (if body.1 then -(Nat.ofDigitChars 10 body.2 0 : ℤ) else Nat.ofDigitChars 10 body.2 0)
    else none

def decimalLiteral (t : Text) : Option ℚ :=
  let whole := t.takeWhile Char.isDigit
  let behind := t.dropWhile Char.isDigit
  let fraction := if behind.head? = some '.' then behind.tail.takeWhile Char.isDigit else []
  let rest := if behind.head? = some '.' then behind.tail.dropWhile Char.isDigit else behind
  if whole = [] && fraction = [] then none
  else (exponentPart rest).map fun exponent =>
    (Nat.ofDigitChars 10 (whole ++ fraction) 0 : ℚ) * 10 ^ (exponent - (fraction.length : ℤ))

/-- `Number(t)` -/
def toNumber (t : Text) : Number :=
  let body := trim t
  if body = [] then .finite 0
  else
    match radixMark body with
    | some (radix, digits) =>
      if digits ≠ [] && digits.all (isDigitOf radix) then .ofRat false (readRadix radix digits) else .nan
    | none =>
      if (sign body).2 = ['I', 'n', 'f', 'i', 'n', 'i', 't', 'y'] then .infinite (sign body).1
      else ((decimalLiteral (sign body).2).map (Number.ofRat (sign body).1)).getD .nan

/-- `isNaN(t)` -/
def isNaN (t : Text) : Bool := toNumber t = .nan

/-! ## Writers -/

def natText (n : ℕ) : Text := Nat.toDigits 10 n

def intText (i : ℤ) : Text := if i < 0 then '-' :: natText i.natAbs else natText i.natAbs

/-- The text of a number, for the numbers whose digits are plain: integers below `2 ^ 53`. -/
def numText : Number → Option Text
  | .nan => some ['N', 'a', 'N']
  | .infinite negative => some ((if negative then ['-'] else []) ++ ['I', 'n', 'f', 'i', 'n', 'i', 't', 'y'])
  | .finite value => if value.den = 1 ∧ value.num.natAbs < 2 ^ 53 then some (intText value.num) else none

/-- `t.substr(start, length)` -/
def substr (t : Text) (start length : ℕ) : Text := (t.drop start).take length

/-! ## Texts of digits -/

/-- The text has digits only, and they are those of `n`; leading zeros are allowed. -/
structure Denotes (t : Text) (n : ℕ) : Prop where
  nonempty : t ≠ []
  digits : ∀ c ∈ t, c.isDigit
  value : Nat.ofDigitChars 10 t 0 = n

instance (t : Text) (n : ℕ) : Decidable (Denotes t n) :=
  decidable_of_iff (t ≠ [] ∧ (∀ c ∈ t, c.isDigit) ∧ Nat.ofDigitChars 10 t 0 = n)
    ⟨fun ⟨nonempty, digits, value⟩ => ⟨nonempty, digits, value⟩, fun d => ⟨d.nonempty, d.digits, d.value⟩⟩

theorem denotes_natText (n : ℕ) : Denotes (natText n) n where
  nonempty := Nat.toDigits_ne_nil
  digits := fun _ => Nat.isDigit_of_mem_toDigits (by decide) (by decide)
  value := Nat.ofDigitChars_ten_toDigits

theorem Denotes.unique {t : Text} {n k : ℕ} (first : Denotes t n) (second : Denotes t k) : n = k :=
  first.value.symm.trans second.value

section

variable {c : Char} {t : Text}

theorem toNat_of_isDigit (digit : c.isDigit) : 48 ≤ c.toNat ∧ c.toNat ≤ 57 := by
  simp only [Char.isDigit, Bool.and_eq_true, decide_eq_true_eq] at digit
  exact digit

theorem isSpace_of_isDigit (digit : c.isDigit) : isSpace c = false := by
  obtain ⟨low, high⟩ := toNat_of_isDigit digit
  unfold isSpace
  generalize c.toNat = code at low high
  interval_cases code <;> rfl

section

variable (digits : ∀ c ∈ t, c.isDigit)

include digits

theorem trimStart_digits : t.dropWhile isSpace = t := by
  cases t with
  | nil => rfl
  | cons c t => simp [isSpace_of_isDigit (digits c mem_cons_self)]

theorem trim_digits : trim t = t := by
  rw [trim, trimStart_digits digits, List.rdropWhile, trimStart_digits fun c member => digits c (by simpa using member),
    reverse_reverse]

theorem sign_digits : sign t = (false, t) := by
  rw [sign.eq_def]
  split
  · exact absurd (digits '-' mem_cons_self) (by decide)
  · exact absurd (digits '+' mem_cons_self) (by decide)
  · rfl

theorem radixMark_digits : radixMark t = none := by
  rw [radixMark.eq_def]
  split
  · rename_i mark rest
    obtain ⟨-, high⟩ := toNat_of_isDigit (digits mark (by simp))
    have notLetter : ∀ letter : Char, 57 < letter.toNat → mark ≠ letter := by
      rintro letter large rfl
      omega
    simp [notLetter]
  · rfl

theorem takeWhile_digits : t.takeWhile Char.isDigit = t :=
  takeWhile_eq_self_iff.2 digits

end

theorem decimalLiteral_digits (nonempty : t ≠ []) (digits : ∀ c ∈ t, c.isDigit) :
    decimalLiteral t = some (Nat.ofDigitChars 10 t 0 : ℚ) := by
  have nothing := dropWhile_eq_nil_iff.2 digits
  simp [decimalLiteral, takeWhile_digits digits, nothing, nonempty, exponentPart]

end

namespace Denotes

variable {t : Text} {n : ℕ}

variable (denotes : Denotes t n)

include denotes

theorem parseInt : parseInt t = .ofNat n := by
  simp only [JsLib.parseInt, trimStart_digits denotes.digits, sign_digits denotes.digits, radixMark_digits denotes.digits,
    takeWhile_digits denotes.digits, if_neg denotes.nonempty, denotes.value]
  rfl

theorem parseInt_minus : JsLib.parseInt ('-' :: t) = .ofRat true n := by
  have start : ('-' :: t).dropWhile isSpace = '-' :: t := rfl
  simp only [JsLib.parseInt, start, sign, radixMark_digits denotes.digits, takeWhile_digits denotes.digits,
    if_neg denotes.nonempty, denotes.value]

theorem toNumber : toNumber t = .ofNat n := by
  have notWord : t ≠ ['I', 'n', 'f', 'i', 'n', 'i', 't', 'y'] := by
    rintro rfl
    exact absurd (denotes.digits 'I' (by simp)) (by decide)
  simp only [JsLib.toNumber, trim_digits denotes.digits, sign_digits denotes.digits, radixMark_digits denotes.digits,
    if_neg denotes.nonempty, if_neg notWord, decimalLiteral_digits denotes.nonempty denotes.digits, denotes.value]
  rfl

end Denotes

theorem intText_natCast (n : ℕ) : intText n = natText n := by
  rw [intText, if_neg (by omega), Int.natAbs_natCast]

theorem numText_ofNat {n : ℕ} (small : n < 2 ^ 53) : numText (.ofNat n) = some (natText n) := by
  rw [Number.ofNat_of_lt small, numText, if_pos ⟨Rat.den_natCast n, by exact small⟩, Rat.num_natCast, intText_natCast]

/-! ## Pieces -/

/-- Two pieces are equal if the characters are. -/
theorem substr_eq_iff {s t : Text} {start length : ℕ} :
    substr s start length = substr t start length ↔ ∀ i < length, s[start + i]? = t[start + i]? := by
  rw [substr, substr]
  constructor
  · intro same i inside
    have := congrArg (·[i]?) same
    simpa [inside] using this
  · intro same
    apply ext_getElem?
    intro i
    by_cases inside : i < length
    · simpa [inside] using same i inside
    · simp [inside]

end RouterApps.JsLib
