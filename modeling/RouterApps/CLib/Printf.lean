/-
# CLib.Printf -- conversions with a width

`%d` is `formatInt`, and a number that fits is also printed by `digits`.  Here are the
conversions with a width: `%02x` and `%08x` always print as many letters as they say
(`lowerHex_length`), while the width of `%5d` is the least number of bytes, not the
largest (`padded_length`).  What was printed can be told from the text
(`digits_injective`, `lowerHexByte_injective`).

Printed with `%03u`, the places of a number in base 1000 make up its decimal digits
(`digits_places`).
-/
import RouterApps.CLib.Text
import RouterApps.Theory.Radix

namespace RouterApps.CLib

open List

/-! ## Widths -/

/-- A conversion with a width: blanks in front. -/
def padded (width : Nat) (text : List UInt8) : List UInt8 := replicate (width - text.length) 32 ++ text

@[simp] theorem padded_length (width : Nat) (text : List UInt8) :
    (padded width text).length = max width text.length := by
  simp only [padded, length_append, length_replicate]
  omega

variable {fuel n : Nat}

theorem digits_length_of_lt {k : Nat} (small : n < 10 ^ (k + 1)) : (digits fuel n).length ≤ k + 1 := by
  induction fuel generalizing n k with
  | zero => exact Nat.zero_le _
  | succ fuel ih =>
    simp only [digits]
    split
    · simp
    · cases k with
      | zero => omega
      | succ k =>
        have : n / 10 < 10 ^ (k + 1) := by
          rw [Nat.div_lt_iff_lt_mul (by decide)]
          rwa [Nat.pow_succ] at small
        simpa using ih this

theorem digits_injective {m : Nat} (bound : n < 10 ^ fuel) (bound' : m < 10 ^ fuel)
    (same : digits fuel n = digits fuel m) : n = m := by
  have read := readDigits_digits fuel n bound []
  rw [same, readDigits_digits fuel m bound' []] at read
  exact (congrArg Prod.fst read).symm

theorem digits_of_le {fuel' : Nat} (bound : n < 10 ^ fuel) (room : fuel ≤ fuel') (some_ : 0 < fuel) :
    digits fuel' n = digits fuel n := by
  induction fuel generalizing fuel' n with
  | zero => omega
  | succ fuel ih =>
    obtain ⟨more, rfl⟩ : ∃ more, fuel' = more + 1 := ⟨fuel' - 1, by omega⟩
    simp only [digits]
    split
    · rfl
    · rcases Nat.eq_zero_or_pos fuel with rfl | left
      · omega
      · rw [ih (by omega) (by omega) left]

/-! ## Groups of three digits -/

def zeroPadded (width : Nat) (text : List UInt8) : List UInt8 := replicate (width - text.length) 48 ++ text

def threeDigits (n : Nat) : List UInt8 :=
  [UInt8.ofNat (48 + n / 100), UInt8.ofNat (48 + n / 10 % 10), UInt8.ofNat (48 + n % 10)]

@[simp] theorem threeDigits_length (n : Nat) : (threeDigits n).length = 3 := rfl

theorem zeroPadded_digits (room : 3 ≤ fuel) (small : n < 1000) : zeroPadded 3 (digits fuel n) = threeDigits n := by
  have all : ∀ n, n < 1000 → zeroPadded 3 (digits 3 n) = threeDigits n := by decide +kernel
  rw [digits_of_le (show n < 10 ^ 3 by omega) room (by decide)]
  exact all n small

theorem threeDigits_range (small : n < 1000) : ∀ b ∈ threeDigits n, 48 ≤ b.toNat ∧ b.toNat ≤ 57 := by
  rw [← zeroPadded_digits (le_refl 3) small]
  intro b member
  rcases mem_append.1 member with zero | digit
  · rw [eq_of_mem_replicate zero]
    decide
  · exact digits_range 3 n b digit

theorem threeDigits_injective {m : Nat} (small : n < 1000) (small' : m < 1000)
    (same : threeDigits n = threeDigits m) : n = m := by
  have digit : ∀ d, d < 10 → (UInt8.ofNat (48 + d)).toNat = 48 + d := by decide
  simp only [threeDigits, cons.injEq, ← UInt8.toNat_inj] at same
  rw [digit (n / 100) (by omega), digit (n / 10 % 10) (by omega), digit (n % 10) (by omega),
    digit (m / 100) (by omega), digit (m / 10 % 10) (by omega), digit (m % 10) (by omega)] at same
  omega

theorem digits_thousands {q r : Nat} (positive : 0 < q) (bound : q * 1000 + r < 10 ^ (fuel + 3)) (small : r < 1000) :
    digits (fuel + 3) (q * 1000 + r) = digits (fuel + 3) q ++ threeDigits r := by
  have room : q < 10 ^ fuel := by
    rw [Nat.pow_add] at bound
    omega
  have some_ : 0 < fuel := by
    rcases Nat.eq_zero_or_pos fuel with rfl | some_
    · omega
    · exact some_
  rw [digits_of_le room (by omega) some_]
  rw [digits, if_neg (by omega), digits, if_neg (by omega), digits, if_neg (by omega)]
  rw [show (q * 1000 + r) / 10 / 10 / 10 = q by omega, show (q * 1000 + r) / 10 / 10 % 10 = r / 100 by omega,
    show (q * 1000 + r) / 10 % 10 = r / 10 % 10 by omega, show (q * 1000 + r) % 10 = r % 10 by omega]
  simp [threeDigits]

/-- The digits of a number are those of its highest place in base 1000 and three for each place below. -/
theorem digits_places (fuel : Nat) {q r : Nat} (positive : 0 < q) (bound : q * 1000 ^ n + r < 10 ^ (fuel + 3))
    (small : r < 1000 ^ n) :
    digits (fuel + 3) (q * 1000 ^ n + r) = digits (fuel + 3) q ++ (Theory.Radix.places 1000 n r).flatMap threeDigits := by
  induction n generalizing q r with
  | zero =>
    obtain rfl : r = 0 := by simpa using small
    simp [Theory.Radix.places]
  | succ n ih =>
    have power : 0 < 1000 ^ n := Nat.pow_pos (by decide)
    have place : r / 1000 ^ n < 1000 := by
      rw [Nat.div_lt_iff_lt_mul power, Nat.mul_comm]
      exact small
    have split : q * 1000 ^ (n + 1) + r = (q * 1000 + r / 1000 ^ n) * 1000 ^ n + r % 1000 ^ n := by
      rw [Nat.add_mul, Nat.add_assoc, Nat.mul_comm (r / _), Nat.div_add_mod, Nat.pow_succ, Nat.mul_assoc,
        Nat.mul_comm 1000]
    rw [split] at bound ⊢
    rw [ih (Nat.add_pos_left (Nat.mul_pos positive (by decide)) _) bound (Nat.mod_lt r power), digits_thousands positive ?_ place,
      Theory.Radix.places, flatMap_cons, append_assoc]
    calc q * 1000 + r / 1000 ^ n ≤ (q * 1000 + r / 1000 ^ n) * 1000 ^ n := Nat.le_mul_of_pos_right _ power
      _ ≤ _ := Nat.le_add_right _ _
      _ < 10 ^ (fuel + 3) := bound

/-! ## Hexadecimal in small letters -/

def lowerHexDigit (n : Nat) : UInt8 := if n < 10 then UInt8.ofNat (48 + n) else UInt8.ofNat (87 + n)

/-- `%02x`. -/
def lowerHexByte (b : UInt8) : List UInt8 := [lowerHexDigit (b.toNat / 16), lowerHexDigit (b.toNat % 16)]

/-- `%08x`. -/
def lowerHex (x : UInt32) : List UInt8 := (leBytes x).reverse.flatMap lowerHexByte

@[simp] theorem lowerHex_length (x : UInt32) : (lowerHex x).length = 8 := rfl

theorem digitValue_lowerHexDigit (small : n < 16) : digitValue 16 (lowerHexDigit n) = some n := by
  have all : ∀ n, n < 16 → digitValue 16 (lowerHexDigit n) = some n := by decide
  exact all n small

theorem lowerHexByte_injective {b c : UInt8} (same : lowerHexByte b = lowerHexByte c) : b = c := by
  obtain ⟨high, low⟩ := cons.inj same
  have bBound := b.toNat_lt
  have cBound := c.toNat_lt
  have highs := congrArg (digitValue 16) high
  have lows := congrArg (digitValue 16) (cons.inj low).1
  rw [digitValue_lowerHexDigit (by omega), digitValue_lowerHexDigit (by omega), Option.some_inj] at highs lows
  exact UInt8.toNat_inj.1 (by omega)

end RouterApps.CLib
