/-
# Theory.Subnet -- networks given by an address and a contiguous mask

Addresses are 32-bit words in host order.  `net p a` is the number of the network of prefix length
`p` that the address `a` belongs to, with zeros for the host part.
As a natural number, it is `a` rounded down to a multiple of `2 ^ (32 - p)` (`toNat_net`).
-/
import Mathlib

namespace RouterApps.Theory.Subnet

/-- The mask of prefix length `p`. -/
def maskOf (p : Nat) : UInt32 := UInt32.ofNat (2 ^ 32 - 2 ^ (32 - p))

/-- The network number of an address. -/
def net (p : Nat) (a : UInt32) : UInt32 := a &&& maskOf p

/-- The networks of two addresses have an address in common. -/
def Share (p : Nat) (a : UInt32) (q : Nat) (b : UInt32) : Prop := ∃ x, net p x = net p a ∧ net q x = net q b

section

variable {p q : Nat} {a b : UInt32}

theorem toNat_net (short : p ≤ 32) (a : UInt32) : (net p a).toNat = a.toNat / 2 ^ (32 - p) * 2 ^ (32 - p) := by
  have whole : 2 ^ 32 - 2 ^ (32 - p) = (2 ^ p - 1) * 2 ^ (32 - p) := by
    rw [Nat.sub_mul, ← Nat.pow_add, Nat.add_sub_cancel' short, Nat.one_mul]
  have positive := Nat.two_pow_pos (32 - p)
  rw [net, maskOf, UInt32.toNat_and, UInt32.toNat_ofNat', whole]
  rw [Nat.mod_eq_of_lt (by rw [← whole]; omega)]
  apply Nat.eq_of_testBit_eq
  intro i
  have small : 32 ≤ i → a.toNat.testBit i = false := fun large =>
    Nat.testBit_lt_two_pow (Nat.lt_of_lt_of_le a.toNat_lt (Nat.pow_le_pow_right (by decide) large))
  simp only [Nat.testBit_and, Nat.testBit_mul_two_pow, Nat.testBit_div_two_pow]
  by_cases high : 32 - p ≤ i
  · by_cases large : 32 ≤ i
    · simp [Nat.sub_add_cancel high, small large]
    · have inside : i - (32 - p) < p := by omega
      simp [high, inside]
  · simp [high]

end

end RouterApps.Theory.Subnet
