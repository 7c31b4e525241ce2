/-
# JsLib.Number -- the numbers of JavaScript

A number is a double: not a number, an infinity, or one of the rationals that `ofRat` rounds to.  The two zeros are
one value here; they differ only under operations that are not modelled.

* A natural number below `2 ^ 53` is a number, and a larger one does not become smaller than that
  (`ofNat_of_lt`, `ofNat_of_le`).  So a comparison of `ofNat n` with a small number is the comparison of `n`
  (`ofNat_lt_iff`, `lt_ofNat_iff`, `ofNat_eq_iff`), however long the text was that `n` was read from.
* The operators on bits take 32 of them (`toInt32_ofNat`), and give back a number (`toInt_ofNat`).
-/
import Mathlib

namespace RouterApps.JsLib

inductive Number where
  | nan
  | infinite (negative : Bool)
  | finite (value : ℚ)
deriving DecidableEq

namespace Number

/-! ## Rounding -/

/-- The natural number next to `r`, and the even one of two. -/
def halfEven (r : ℚ) : ℕ :=
  if r - ⌊r⌋₊ < 1 / 2 then ⌊r⌋₊
  else if 1 / 2 < r - ⌊r⌋₊ then ⌊r⌋₊ + 1
  else if ⌊r⌋₊ % 2 = 0 then ⌊r⌋₊ else ⌊r⌋₊ + 1

theorem halfEven_natCast (n : ℕ) : halfEven n = n := by
  rw [halfEven, Nat.floor_natCast, if_pos (by norm_num)]

variable {n : ℕ}

theorem le_halfEven {r : ℚ} (le : (n : ℚ) ≤ r) : n ≤ halfEven r := by
  have floor : n ≤ ⌊r⌋₊ := Nat.le_floor le
  rw [halfEven]
  split_ifs <;> omega

/-- The unit in the last of the 53 places. -/
def unit (r : ℚ) : ℚ := (2 : ℚ) ^ (max (Int.log 2 r) (-1022) - 52)

/-- The double next to `r`, or to `-r`, for an `r` that is not negative. -/
def ofRat (negative : Bool) (r : ℚ) : Number :=
  if r ≤ 0 then .finite 0
  else if 2 ^ 1024 ≤ halfEven (r / unit r) * unit r then .infinite negative
  else .finite (if negative then -(halfEven (r / unit r) * unit r) else halfEven (r / unit r) * unit r)

def ofNat (n : ℕ) : Number := ofRat false n

variable {n k : ℕ}

section

theorem unit_natCast (n : ℕ) : unit n = (2 : ℚ) ^ ((Nat.log 2 n : ℤ) - 52) := by
  rw [unit, Int.log_natCast, max_eq_left (by omega)]

theorem ofRat_of_lt (negative : Bool) (small : n < 2 ^ 53) : ofRat negative n = .finite (if negative then -n else n) := by
  rcases Nat.eq_zero_or_pos n with rfl | positive
  · simp [ofRat]
  have log : Nat.log 2 n < 53 := Nat.log_lt_of_lt_pow positive.ne' small
  -- scaled to 53 places, `n` is still a natural number
  have scaled : (n : ℚ) / unit n = ((n * 2 ^ (52 - Nat.log 2 n) : ℕ) : ℚ) := by
    have exponent : (Nat.log 2 n : ℤ) - 52 = -((52 - Nat.log 2 n : ℕ) : ℤ) := by omega
    rw [unit_natCast, exponent, zpow_neg, div_inv_eq_mul]
    push_cast
    rfl
  have nonzero : unit n ≠ 0 := zpow_ne_zero _ two_ne_zero
  have back : (halfEven ((n : ℚ) / unit n) : ℚ) * unit n = n := by
    rw [scaled, halfEven_natCast, ← scaled, div_mul_cancel₀ _ nonzero]
  have bound : (n : ℚ) < 2 ^ 1024 := lt_trans (by exact_mod_cast small) (pow_lt_pow_right₀ one_lt_two (by norm_num))
  rw [ofRat, if_neg (not_le.2 (by exact_mod_cast positive)), back, if_neg (not_le.2 bound)]

theorem ofNat_of_lt (small : n < 2 ^ 53) : ofNat n = .finite n := ofRat_of_lt false small

/-- What is too large to be exact stays large. -/
theorem ofNat_of_le (large : 2 ^ 53 ≤ n) : ofNat n = .infinite false ∨ ∃ value : ℚ, 2 ^ 53 ≤ value ∧ ofNat n = .finite value := by
  have positive : 0 < n := lt_of_lt_of_le (by norm_num) large
  have log : 53 ≤ Nat.log 2 n := (Nat.le_log_iff_pow_le (by norm_num) positive.ne').2 large
  have unitPositive : 0 < unit n := zpow_pos two_pos _
  -- the first of the 53 places is 1, and stays there
  have below : (2 : ℚ) ^ Nat.log 2 n ≤ n := by exact_mod_cast Nat.pow_log_le_self 2 positive.ne'
  have split : ((2 ^ 52 : ℕ) : ℚ) * unit n = (2 : ℚ) ^ Nat.log 2 n := by
    rw [unit_natCast, ← zpow_natCast (2 : ℚ) (Nat.log 2 n), Nat.cast_pow, Nat.cast_ofNat, ← zpow_natCast (2 : ℚ) 52,
      ← zpow_add₀ two_ne_zero]
    congr 1
    omega
  have places : 2 ^ 52 ≤ halfEven ((n : ℚ) / unit n) := le_halfEven (by rw [le_div_iff₀ unitPositive, split]; exact below)
  have rounded : (2 : ℚ) ^ 53 ≤ halfEven ((n : ℚ) / unit n) * unit n :=
    calc (2 : ℚ) ^ 53 ≤ 2 ^ Nat.log 2 n := pow_le_pow_right₀ one_le_two log
      _ = ((2 ^ 52 : ℕ) : ℚ) * unit n := split.symm
      _ ≤ halfEven ((n : ℚ) / unit n) * unit n := by
          exact mul_le_mul_of_nonneg_right (by exact_mod_cast places) unitPositive.le
  rw [ofNat, ofRat, if_neg (not_le.2 (by exact_mod_cast positive))]
  split
  · exact .inl rfl
  · exact .inr ⟨_, rounded, rfl⟩

end

/-! ## Comparison -/

/-- `a < b` -/
def lt : Number → Number → Bool
  | .finite a, .finite b => a < b
  | .infinite true, .finite _ | .infinite true, .infinite false | .finite _, .infinite false => true
  | _, _ => false

/-- `a <= b` -/
def le (a b : Number) : Bool := a != .nan && b != .nan && !b.lt a

/-- `a == b` -/
def eq (a b : Number) : Bool := a != .nan && a = b

/-- What an `if` takes for false. -/
def falsy (a : Number) : Bool := a = .nan || a = .finite 0

section

theorem ofNat_lt_iff (small : k ≤ 2 ^ 53) : (ofNat n).lt (.finite k) ↔ n < k := by
  rcases Nat.lt_or_ge n (2 ^ 53) with exact | large
  · simp [ofNat_of_lt exact, lt]
  · have : ((2 : ℚ) ^ 53) ≥ k := by exact_mod_cast small
    rcases ofNat_of_le large with infinite | ⟨value, le, finite⟩
    · simp only [infinite, lt]
      simp only [Bool.false_eq_true, false_iff]
      omega
    · simp only [finite, lt, decide_eq_true_eq]
      constructor
      · intro less
        linarith
      · omega

theorem lt_ofNat_iff (small : k < 2 ^ 53) : (Number.finite k).lt (ofNat n) ↔ k < n := by
  rcases Nat.lt_or_ge n (2 ^ 53) with exact | large
  · simp [ofNat_of_lt exact, lt]
  · have : ((2 : ℚ) ^ 53) > k := by exact_mod_cast small
    rcases ofNat_of_le large with infinite | ⟨value, le, finite⟩
    · simp only [infinite, lt, true_iff]
      omega
    · simp only [finite, lt, decide_eq_true_eq]
      constructor
      · omega
      · intro less
        linarith

theorem ofNat_eq_iff (small : k < 2 ^ 53) : ofNat n = .finite k ↔ n = k := by
  rcases Nat.lt_or_ge n (2 ^ 53) with exact | large
  · simp [ofNat_of_lt exact]
  · have bound : ((2 : ℚ) ^ 53) > k := by exact_mod_cast small
    rcases ofNat_of_le large with infinite | ⟨value, le, finite⟩
    · simp only [infinite, reduceCtorEq, false_iff]
      omega
    · simp only [finite, Number.finite.injEq]
      constructor
      · rintro rfl
        exact absurd le (not_le.2 bound)
      · omega

theorem ofRat_minus_lt (r : ℚ) : (ofRat true r).lt (.finite 1) := by
  have unitPositive : 0 < unit r := zpow_pos two_pos _
  have : (0 : ℚ) ≤ halfEven (r / unit r) * unit r := by positivity
  rw [ofRat, if_pos rfl]
  split_ifs
  · simp [lt]
  · rfl
  · simp only [lt, decide_eq_true_eq]
    linarith

theorem ofNat_ne_nan : ofNat n ≠ .nan := by
  rw [ofNat, ofRat]
  split
  · exact nofun
  · split <;> exact nofun

end

/-! ## Bits -/

/-- The 32 bits that an operator on bits takes. -/
def toInt32 : Number → BitVec 32
  | .finite value => BitVec.ofInt 32 (value.num.tdiv value.den)
  | _ => 0

def ofInt32 (bits : BitVec 32) : Number := .finite bits.toInt

theorem toInt32_ofNat (small : n < 2 ^ 53) : (ofNat n).toInt32 = BitVec.ofNat 32 n := by
  simp [ofNat_of_lt small, toInt32]

theorem toInt_ofNat (small : n < 2 ^ 31) : (BitVec.ofNat 32 n).toInt = n := by
  rw [BitVec.toInt_ofNat', Int.bmod_eq_of_le] <;> omega

/-- The complement of a byte. -/
theorem not_ofNat_and_byte (byte : n < 256) : ~~~BitVec.ofNat 32 n &&& 255 = BitVec.ofNat 32 (255 - n) := by
  have all : ∀ n < 256, ~~~BitVec.ofNat 32 n &&& 255 = BitVec.ofNat 32 (255 - n) := by decide +kernel
  exact all n byte

theorem not_or_and_byte {k : ℕ} (first : n < 256) (second : k < 256) :
    (~~~BitVec.ofNat 32 n ||| BitVec.ofNat 32 k) &&& 255 = BitVec.ofNat 32 ((255 - n) ||| k) := by
  have byte : ∀ k < 256, BitVec.ofNat 32 k &&& 255 = BitVec.ofNat 32 k := by decide +kernel
  rw [BitVec.and_or_distrib_right, not_ofNat_and_byte first, byte k second, BitVec.ofNat_or]

theorem ofInt32_ofNat (small : n < 2 ^ 31) : ofInt32 (BitVec.ofNat 32 n) = ofNat n := by
  rw [ofInt32, toInt_ofNat small, ofNat_of_lt (by omega)]
  rfl

/-! ## Sums -/

/-- `a + b` -/
def add : Number → Number → Number
  | .finite a, .finite b => ofRat (a + b < 0) |a + b|
  | .infinite a, .infinite b => if a = b then .infinite a else .nan
  | .infinite a, .finite _ | .finite _, .infinite a => .infinite a
  | _, _ => .nan

theorem add_finite {a b : ℚ} (small : n < 2 ^ 53) (sum : a + b = n) : (Number.finite a).add (.finite b) = .finite n := by
  have nonneg : (0 : ℚ) ≤ n := Nat.cast_nonneg n
  rw [add, sum, abs_of_nonneg nonneg, ofRat_of_lt _ small]
  simp

end Number

end RouterApps.JsLib
