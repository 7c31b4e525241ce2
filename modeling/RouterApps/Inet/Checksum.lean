/-
# Inet.Checksum -- incremental checksums of the kernel (lib/checksum.c, net/checksum.h)

`csum_replace4` as the kernel computes it, for a buffer of whole double words that stands at
an aligned address (the local array `diff` does), and its closed form (`csumReplace4_toNat`).
`unsigned long` has 32 bits.
-/
import RouterApps.Theory.OnesComplement

namespace RouterApps.Inet

open Theory

/-- A step `x = (x & 0xffff) + (x >> 16)`. -/
def addCarry (x : UInt32) : UInt32 := (x &&& (0xffff : UInt32)) + (x >>> (16 : UInt32))

def from32to16 (x : UInt32) : UInt32 := addCarry (addCarry x) &&& (0xffff : UInt32)

/-- The loop of `do_csum`: the result and the carry. -/
def doCsumLoop : List UInt32 → UInt32 × UInt32 → UInt32 × UInt32
  | [], state => state
  | w :: rest, (result, carry) =>
    let result := result + carry + w
    doCsumLoop rest (result, if w > result then 1 else 0)

def doCsum (words : List UInt32) : UInt32 :=
  let (result, carry) := doCsumLoop words (0, 0)
  from32to16 (addCarry (result + carry))

def csumPartial (words : List UInt32) (sum : UInt32) : UInt32 :=
  let result := doCsum words + sum
  if sum > result then result + 1 else result

def csumFold (csum : UInt32) : UInt16 := (~~~ addCarry (addCarry csum)).toUInt16

def csumReplace4 (sum : UInt16) (old new : UInt32) : UInt16 :=
  csumFold (csumPartial [~~~ old, new] (~~~ sum.toUInt32))

/-! ## Closed forms -/

variable (x : UInt32)

theorem toNat_low : (x &&& 0xffff).toNat = x.toNat % 65536 := by
  exact Nat.and_two_pow_sub_one_eq_mod x.toNat 16

theorem toNat_high : (x >>> 16).toNat = x.toNat / 65536 := by
  exact Nat.shiftRight_eq_div_pow x.toNat 16

theorem addCarry_toNat : (addCarry x).toNat = half x.toNat := by
  have bounded := x.toNat_lt
  unfold addCarry half
  rw [UInt32.toNat_add, toNat_low, toNat_high]
  omega

/-- Folding twice leaves the representative of the sum that is 0 for 0 only. -/
theorem half_half {x : Nat} (bounded : x < 4294967296) :
    half (half x) ≤ 65535 ∧ half (half x) % 65535 = x % 65535 ∧ (half (half x) = 0 ↔ x = 0) := by
  unfold half
  omega

theorem csumFold_toNat {csum : UInt32} (nonzero : csum.toNat ≠ 0) :
    (csumFold csum).toNat < 65535 ∧ ((csumFold csum).toNat + csum.toNat) % 65535 = 0 := by
  obtain ⟨small, sameRest, isZero⟩ := half_half csum.toNat_lt
  have value : (csumFold csum).toNat = 65535 - half (half csum.toNat) := by
    unfold csumFold
    rw [UInt32.toNat_toUInt16, UInt32.toNat_not, addCarry_toNat, addCarry_toNat]
    simp only [UInt32.size]
    omega
  omega

theorem doCsum_pair (a b : UInt32) :
    (doCsum [a, b]).toNat ≤ 65535 ∧ (doCsum [a, b]).toNat % 65535 = (a.toNat + b.toNat) % 65535 := by
  have boundedA := a.toNat_lt
  have boundedB := b.toNat_lt
  -- the first word makes no carry, and the second one at most one
  have total : half (if b > a + b then a + b + 1 else a + b).toNat % 65535 = (a.toNat + b.toNat) % 65535 := by
    rw [half_modEq]
    split
    · rename_i carried
      have wrapped : (a + b).toNat < b.toNat := UInt32.lt_iff_toNat_lt.1 carried
      rw [UInt32.toNat_add] at wrapped ⊢
      rw [UInt32.toNat_add]
      simp only [UInt32.toNat_one]
      omega
    · rename_i carried
      have direct : ¬ (a + b).toNat < b.toNat := fun less => carried (UInt32.lt_iff_toNat_lt.2 less)
      rw [UInt32.toNat_add] at direct ⊢
      omega
  have loop : doCsumLoop [a, b] (0, 0) = (a + b, if b > a + b then 1 else 0) := by
    simp [doCsumLoop]
  unfold doCsum from32to16
  rw [loop]
  dsimp only
  have joined : (a + b + if b > a + b then 1 else 0) = if b > a + b then a + b + 1 else a + b := by
    split <;> simp
  rw [joined, toNat_low, addCarry_toNat, addCarry_toNat, addCarry_toNat]
  revert total
  generalize (if b > a + b then a + b + 1 else a + b) = x
  intro total
  have bounded := x.toNat_lt
  have small : half x.toNat ≤ 131070 := by
    unfold half
    omega
  obtain ⟨fits, sameRest, -⟩ := half_half (x := half x.toNat) (by omega)
  omega

theorem csumPartial_toNat (words : List UInt32) (sum : UInt32) (nonzero : sum.toNat ≠ 0) :
    (csumPartial words sum).toNat ≠ 0 ∧
      (csumPartial words sum).toNat % 65535 = ((doCsum words).toNat + sum.toNat) % 65535 := by
  have bounded := sum.toNat_lt
  have boundedToo := (doCsum words).toNat_lt
  unfold csumPartial
  dsimp only
  split
  · rename_i carried
    have wrapped := UInt32.lt_iff_toNat_lt.1 carried
    rw [UInt32.toNat_add] at wrapped ⊢
    rw [UInt32.toNat_add]
    simp only [UInt32.toNat_one]
    omega
  · rename_i carried
    have direct : ¬ (doCsum words + sum).toNat < sum.toNat := fun less => carried (UInt32.lt_iff_toNat_lt.2 less)
    rw [UInt32.toNat_add] at direct ⊢
    omega

/-- **The incremental checksum makes up for the exchange**, and is never 0xffff. -/
theorem csumReplace4_toNat (sum : UInt16) (old new : UInt32) :
    (csumReplace4 sum old new).toNat = exchanged sum.toNat old.toNat new.toNat := by
  have boundedSum := sum.toNat_lt
  have boundedOld := old.toNat_lt
  have boundedNew := new.toNat_lt
  have inverse : (~~~ sum.toUInt32).toNat = 4294967295 - sum.toNat := by
    rw [UInt32.toNat_not]
    rfl
  have inverseOld : (~~~ old).toNat = 4294967295 - old.toNat := by
    rw [UInt32.toNat_not]
    rfl
  obtain ⟨nonzero, partialRest⟩ := csumPartial_toNat [~~~ old, new] (~~~ sum.toUInt32) (by omega)
  obtain ⟨-, pairRest⟩ := doCsum_pair (~~~ old) new
  obtain ⟨small, foldRest⟩ := csumFold_toNat nonzero
  unfold csumReplace4 exchanged half
  omega

end RouterApps.Inet
