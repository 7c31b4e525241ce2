/-
# Theory.OnesComplement -- sums of 16-bit words with end-around carry

Adding words with end-around carry is adding them modulo `2 ^ 16 - 1`, with the one
difference that a sum of words that are not all 0 is never 0: it is all ones instead.
A checksum is right when the sum is all ones (`Verifies`).

`span w n` adds the first `n` bytes of a memory of words.  Where `n` is odd, the last word
counts with its first byte alone (`part`).  A write to one word moves the sum by what is
counted of it (`span_update`), and `exchanged c old new` is the checksum that makes up for the
exchange of a double word (`exchanged_balance`).
-/
import Mathlib

namespace RouterApps.Theory

open Finset Function

/-! ## Sums over bytes -/

/-- What a span of `n` bytes counts of the value `x` of its word `k`. -/
def part (n k x : Nat) : Nat := if 2 * k + 2 ≤ n then x else if 2 * k + 1 = n then x % 256 else 0

/-- The sum of the first `n` bytes. -/
def span (w : Nat → Nat) (n : Nat) : Nat := ∑ k ∈ range ((n + 1) / 2), part n k (w k)

theorem part_full {n k : Nat} (inside : 2 * k + 2 ≤ n) (x : Nat) : part n k x = x := if_pos inside

theorem part_outside {n k : Nat} (outside : n ≤ 2 * k) (x : Nat) : part n k x = 0 := by
  unfold part
  rw [if_neg (by omega), if_neg (by omega)]

variable (w : Nat → Nat)

theorem part_le_span (n k : Nat) : part n k (w k) ≤ span w n := by
  by_cases inside : k < (n + 1) / 2
  · exact single_le_sum (f := fun k => part n k (w k)) (fun _ _ => Nat.zero_le _) (mem_range.2 inside)
  · rw [part_outside (by omega)]
    exact Nat.zero_le _

theorem span_congr {w w' : Nat → Nat} {n : Nat} (same : ∀ k, 2 * k < n → w' k = w k) : span w' n = span w n := by
  refine sum_congr rfl fun k counted => ?_
  have inside : 2 * k < n := by
    have := mem_range.1 counted
    omega
  rw [same k inside]

theorem span_update (n k v : Nat) : span (update w k v) n + part n k (w k) = span w n + part n k v := by
  unfold span
  by_cases inside : k ∈ range ((n + 1) / 2)
  · have others : ∑ i ∈ (range ((n + 1) / 2)).erase k, part n i (update w k v i) =
        ∑ i ∈ (range ((n + 1) / 2)).erase k, part n i (w i) := by
      refine sum_congr rfl fun i other => ?_
      rw [update_of_ne (mem_erase.1 other).1]
    rw [← add_sum_erase _ _ inside, ← add_sum_erase _ (fun i => part n i (w i)) inside, update_self]
    omega
  · have outside : n ≤ 2 * k := by
      have := mem_range.not.1 inside
      omega
    rw [part_outside outside, part_outside outside, Nat.add_zero]
    refine sum_congr rfl fun i counted => ?_
    rw [update_of_ne]
    rintro rfl
    exact inside counted

theorem span_update₃ (n : Nat) {i j k : Nat} (a b c : Nat) (ji : j ≠ i) (ki : k ≠ i) (kj : k ≠ j) :
    span (update (update (update w i a) j b) k c) n +
        (part n i (w i) + part n j (w j) + part n k (w k)) =
      span w n + (part n i a + part n j b + part n k c) := by
  have moved₁ := span_update w n i a
  have moved₂ := span_update (update w i a) n j b
  have moved₃ := span_update (update (update w i a) j b) n k c
  rw [update_of_ne ji] at moved₂
  rw [update_of_ne kj, update_of_ne ki] at moved₃
  omega

/-! ## Checksums -/

/-- The sum with end-around carry is all ones. -/
def Verifies (sum : Nat) : Prop := sum ≠ 0 ∧ sum % 65535 = 0

instance (sum : Nat) : Decidable (Verifies sum) := inferInstanceAs (Decidable (_ ∧ _))

theorem Verifies.of_modEq {sum sum' : Nat} (verifies : Verifies sum) (nonzero : sum' ≠ 0)
    (same : sum' ≡ sum [MOD 65535]) : Verifies sum' :=
  ⟨nonzero, Eq.trans same verifies.2⟩

/-- The sum of the two words of a double word. -/
def half (x : Nat) : Nat := x % 65536 + x / 65536

theorem half_modEq (x : Nat) : half x ≡ x [MOD 65535] := by
  unfold half Nat.ModEq
  omega

/-- The checksum after a double word of the summed bytes was exchanged. -/
def exchanged (c old new : Nat) : Nat := (c + half old + (131070 - half new)) % 65535

theorem exchanged_balance (c old : Nat) {new : Nat} (bounded : new < 4294967296) :
    exchanged c old new + half new ≡ c + half old [MOD 65535] := by
  have small : half new ≤ 131070 := by
    unfold half
    omega
  unfold exchanged Nat.ModEq
  omega

end RouterApps.Theory
