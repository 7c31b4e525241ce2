/-
# Theory.Octets -- the four octets of an address

An address is a 32-bit word in host order; octet 0 is the one that is written first.  The operators of the word are
those of its octets (`octet_and`, `octet_broadcast`), and the octets are the word (`ext_octet`, `octet_ofOctets`), so
what is computed octet by octet is computed on the address.

The masks of prefix length 1 to 32 are told from the octets (`exists_maskOf_iff`): each is one of nine values, the first
is not 0, and behind one that is not 255 there is nothing but 0.
-/
import RouterApps.Theory.Subnet

namespace RouterApps.Theory.Subnet

instance neZero_four : NeZero 4 := ⟨by decide⟩

def octet (i : Fin 4) (a : UInt32) : ℕ := a.toNat >>> (8 * (3 - i.val)) % 2 ^ 8

def ofOctets (o : Fin 4 → ℕ) : UInt32 := UInt32.ofNat (o 0 * 2 ^ 24 + o 1 * 2 ^ 16 + o 2 * 2 ^ 8 + o 3)

/-- The last address of the network of `a`. -/
def broadcast (m a : UInt32) : UInt32 := (a &&& m) ||| ~~~m

variable {o : Fin 4 → ℕ}

section

variable {i : Fin 4} {a b m : UInt32}

theorem octet_lt (i : Fin 4) (a : UInt32) : octet i a < 256 := Nat.mod_lt _ (by decide)

theorem ext_octet (same : ∀ i, octet i a = octet i b) : a = b := by
  have first := same 0
  have second := same 1
  have third := same 2
  have fourth := same 3
  have boundA := a.toNat_lt
  have boundB := b.toNat_lt
  simp only [octet, Fin.val_zero, Fin.val_one, Fin.val_two] at first second third
  simp only [octet, show (3 : Fin 4).val = 3 from rfl] at fourth
  apply UInt32.toNat_inj.1
  omega

theorem octet_ofOctets (bytes : ∀ i, o i < 256) : octet i (ofOctets o) = o i := by
  have first := bytes 0
  have second := bytes 1
  have third := bytes 2
  have fourth := bytes 3
  have word : (ofOctets o).toNat = o 0 * 2 ^ 24 + o 1 * 2 ^ 16 + o 2 * 2 ^ 8 + o 3 := by
    rw [ofOctets, UInt32.toNat_ofNat']
    omega
  rw [octet, Nat.shiftRight_eq_div_pow]
  fin_cases i
  · show _ / 2 ^ 24 % 2 ^ 8 = o 0
    omega
  · show _ / 2 ^ 16 % 2 ^ 8 = o 1
    omega
  · show _ / 2 ^ 8 % 2 ^ 8 = o 2
    omega
  · show _ / 2 ^ 0 % 2 ^ 8 = o 3
    omega

theorem octet_and : octet i (a &&& b) = octet i a &&& octet i b := by
  rw [octet, octet, octet, UInt32.toNat_and, Nat.shiftRight_and_distrib, Nat.and_mod_two_pow]

theorem octet_or : octet i (a ||| b) = octet i a ||| octet i b := by
  rw [octet, octet, octet, UInt32.toNat_or, Nat.shiftRight_or_distrib, Nat.or_mod_two_pow]

theorem octet_not : octet i (~~~a) = 255 - octet i a := by
  have bound := a.toNat_lt
  have word : (~~~a).toNat = 2 ^ 32 - 1 - a.toNat := by
    rw [UInt32.toNat_not]
    rfl
  rw [octet, octet, Nat.shiftRight_eq_div_pow, Nat.shiftRight_eq_div_pow]
  fin_cases i
  · show _ / 2 ^ 24 % 2 ^ 8 = 255 - _ / 2 ^ 24 % 2 ^ 8
    omega
  · show _ / 2 ^ 16 % 2 ^ 8 = 255 - _ / 2 ^ 16 % 2 ^ 8
    omega
  · show _ / 2 ^ 8 % 2 ^ 8 = 255 - _ / 2 ^ 8 % 2 ^ 8
    omega
  · show _ / 2 ^ 0 % 2 ^ 8 = 255 - _ / 2 ^ 0 % 2 ^ 8
    omega

theorem octet_broadcast : octet i (broadcast m a) = (octet i a &&& octet i m) ||| (255 - octet i m) := by
  rw [broadcast, octet_or, octet_and, octet_not]

/-- Below the mask nothing is set, so that "or" and "exclusive or" are the same. -/
theorem and_xor_complement {x y : ℕ} (byte : y < 256) : (x &&& y) ^^^ (255 - y) = (x &&& y) ||| (255 - y) := by
  have complement : ∀ k, (255 - y).testBit k = (decide (k < 8) && !y.testBit k) := fun k => by
    rw [← Nat.testBit_two_pow_sub_succ byte k, show 2 ^ 8 - (y + 1) = 255 - y by omega]
  apply Nat.eq_of_testBit_eq
  intro k
  simp only [Nat.testBit_xor, Nat.testBit_or, Nat.testBit_and, complement]
  cases y.testBit k <;> simp

theorem and_le : a &&& m ≤ a := Nat.and_le_left

theorem le_broadcast : a ≤ broadcast m a := by
  have absorbed : broadcast m a = a ||| ~~~m := by
    apply UInt32.toBitVec_inj.1
    simp only [broadcast, UInt32.toBitVec_or, UInt32.toBitVec_and, UInt32.toBitVec_not]
    ext k inside
    simp only [BitVec.getElem_or, BitVec.getElem_and, BitVec.getElem_not]
    cases m.toBitVec[k] <;> simp
  rw [absorbed, UInt32.le_iff_toNat_le]
  exact Nat.left_le_or

end

/-! ## Masks -/

/-- What the octets of a mask can be. -/
def maskOctets : List ℕ := [255, 254, 252, 248, 240, 224, 192, 128, 0]

/-- Behind an octet that is not full, only zeros follow. -/
def Contiguous (o : Fin 4 → ℕ) : Prop :=
  (o 0 = 255 ∨ (o 1 = 0 ∧ o 2 = 0 ∧ o 3 = 0)) ∧ (o 1 = 255 ∨ (o 2 = 0 ∧ o 3 = 0)) ∧ (o 2 = 255 ∨ o 3 = 0)

instance (o : Fin 4 → ℕ) : Decidable (Contiguous o) :=
  inferInstanceAs (Decidable ((_ ∨ _) ∧ (_ ∨ _) ∧ (_ ∨ _)))

theorem maskOf_octets : ∀ p < 33, 1 ≤ p →
    octet 0 (maskOf p) ≠ 0 ∧ (∀ i, octet i (maskOf p) ∈ maskOctets) ∧ Contiguous fun i => octet i (maskOf p) := by
  decide +kernel

theorem exists_maskOf : ∀ a ∈ maskOctets, a ≠ 0 → ∀ b ∈ maskOctets, a = 255 ∨ b = 0 → ∀ c ∈ maskOctets,
    b = 255 ∨ c = 0 → ∀ d ∈ maskOctets, c = 255 ∨ d = 0 → ∃ p < 33, 1 ≤ p ∧ maskOf p = ofOctets ![a, b, c, d] := by
  decide +kernel

theorem exists_maskOf_iff :
    (∃ p, 1 ≤ p ∧ p ≤ 32 ∧ ∀ i, octet i (maskOf p) = o i) ↔ o 0 ≠ 0 ∧ (∀ i, o i ∈ maskOctets) ∧ Contiguous o := by
  constructor
  · rintro ⟨p, positive, short, same⟩
    have octets := maskOf_octets p (by omega) positive
    obtain rfl := funext same
    exact octets
  · rintro ⟨first, values, head, middle, last⟩
    have four : o = ![o 0, o 1, o 2, o 3] := by
      funext i
      fin_cases i <;> rfl
    obtain ⟨p, short, positive, mask⟩ := exists_maskOf _ (values 0) first _ (values 1) (head.imp_right (·.1))
      _ (values 2) (middle.imp_right (·.1)) _ (values 3) last
    have small : ∀ value ∈ maskOctets, value < 256 := by decide
    refine ⟨p, positive, by omega, fun i => ?_⟩
    rw [mask, ← four, octet_ofOctets fun i => small _ (values i)]

end RouterApps.Theory.Subnet
