/-
# Theory.Radix -- the places of a number in a base, and texts cut into groups

* `places b n v` are the `n` lowest places of `v`, the highest first.
* `strides b n v` are the numbers that one gets by dividing by the largest power of the base
  that is not above what is left, `n` times, and then taking the lowest place.  A place that is
  0 is skipped this way (`strides_eq_places_iff`).
* A text is `Cut` into groups of one size when all but the first have that size.  The groups are
  determined by the text (`Cut.unique`).
-/
import Mathlib

namespace RouterApps.Theory.Radix

open List

/-! ## Places -/

section

variable {b : Nat}

/-- The `n` lowest places, the highest first. -/
def places (b : Nat) : Nat → Nat → List Nat
  | 0, _ => []
  | n + 1, v => v / b ^ n :: places b n (v % b ^ n)

@[simp] theorem places_length (b n v : Nat) : (places b n v).length = n := by
  induction n generalizing v with
  | zero => rfl
  | succ n ih => simp [places, ih]

variable {n v : Nat}

theorem lt_of_mem_places (base : 0 < b) (small : v < b ^ n) : ∀ place ∈ places b n v, place < b := by
  induction n generalizing v with
  | zero => simp [places]
  | succ n ih =>
    have power : 0 < b ^ n := Nat.pow_pos base
    intro place member
    rcases mem_cons.1 member with rfl | lower
    · rw [Nat.div_lt_iff_lt_mul power, Nat.mul_comm]
      exact small
    · exact ih (Nat.mod_lt v power) place lower

/-- The numbers one gets by taking the largest power of the base that is not above what is left. -/
def strides (b : Nat) : Nat → Nat → List Nat
  | 0, v => [v % b]
  | n + 1, v => v / b ^ Nat.log b v :: strides b n (v % b ^ Nat.log b v)

@[simp] theorem strides_length (b n v : Nat) : (strides b n v).length = n + 1 := by
  induction n generalizing v with
  | zero => rfl
  | succ n ih => simp [strides, ih]

theorem lt_of_mem_strides (base : 1 < b) : ∀ stride ∈ strides b n v, stride < b := by
  induction n generalizing v with
  | zero =>
    intro stride member
    obtain rfl := mem_singleton.1 member
    exact Nat.mod_lt v (Nat.lt_of_succ_lt base)
  | succ n ih =>
    intro stride member
    rcases mem_cons.1 member with rfl | lower
    · rw [Nat.div_lt_iff_lt_mul (Nat.pow_pos (Nat.lt_of_succ_lt base)), Nat.mul_comm]
      exact Nat.lt_pow_succ_log_self base v
    · exact ih stride lower

/-- Below a place that is 0 there is nothing. -/
def NoInnerZero (b n v : Nat) : Prop := ∀ i, 1 ≤ i → i ≤ n → v / b ^ i % b = 0 → v % b ^ i = 0

theorem noInnerZero_succ : NoInnerZero b (n + 1) v ↔
      (v / b ^ (n + 1) % b = 0 → v % b ^ (n + 1) = 0) ∧ NoInnerZero b n (v % b ^ (n + 1)) := by
  -- the places up to `n` are those of the remainder
  have lower : ∀ i, i ≤ n → v % b ^ (n + 1) / b ^ i % b = v / b ^ i % b ∧ v % b ^ (n + 1) % b ^ i = v % b ^ i := by
    intro i below
    obtain ⟨d, rfl⟩ := Nat.exists_eq_add_of_le below
    have power : b ^ (i + d + 1) = b ^ i * (b * b ^ d) := by
      rw [Nat.add_assoc, Nat.pow_add, Nat.pow_succ, Nat.mul_comm b]
    constructor
    · rw [power, Nat.mod_mul_right_div_self, Nat.mod_mul_right_mod]
    · rw [power, Nat.mod_mul_right_mod]
  constructor
  · intro whole
    refine ⟨whole (n + 1) (by omega) le_rfl, fun i first below zero => ?_⟩
    rw [(lower i below).1] at zero
    rw [(lower i below).2]
    exact whole i first (by omega) zero
  · rintro ⟨highest, rest⟩ i first below zero
    rcases Nat.lt_or_ge n i with above | below
    · obtain rfl : i = n + 1 := by omega
      exact highest zero
    · have := rest i first below
      rw [(lower i below).1, (lower i below).2] at this
      exact this zero

theorem strides_eq_places_iff (base : 1 < b) (small : v < b ^ (n + 1)) :
    strides b n v = places b (n + 1) v ↔ NoInnerZero b n v := by
  induction n generalizing v with
  | zero =>
    rw [Nat.pow_one] at small
    refine iff_of_true ?_ fun i first below => by omega
    simp [strides, places, Nat.mod_eq_of_lt small]
  | succ n ih =>
    have power : 0 < b ^ (n + 1) := Nat.pow_pos (by omega)
    rw [noInnerZero_succ]
    rcases Nat.lt_or_ge v (b ^ (n + 1)) with low | high
    · have noPlace : v / b ^ (n + 1) = 0 := Nat.div_eq_of_lt low
      have same : v % b ^ (n + 1) = v := Nat.mod_eq_of_lt low
      rw [strides, places, noPlace, cons.injEq]
      rcases Nat.eq_zero_or_pos v with rfl | positive
      · -- nothing is left: all the numbers are 0
        simpa using ih (Nat.pow_pos (by omega))
      · have stride : 0 < v / b ^ Nat.log b v := Nat.div_pos (Nat.pow_log_le_self b (by omega)) (Nat.pow_pos (by omega))
        refine iff_of_false (fun equal => by omega) fun exact => ?_
        have := exact.1 (Nat.zero_mod b)
        omega
    · have top : Nat.log b v = n + 1 := (Nat.log_eq_iff (.inl (Nat.succ_ne_zero n))).2 ⟨high, small⟩
      have place : v / b ^ (n + 1) % b ≠ 0 := by
        have positive : 0 < v / b ^ (n + 1) := Nat.div_pos high power
        have below : v / b ^ (n + 1) < b := by
          rw [Nat.div_lt_iff_lt_mul power, Nat.mul_comm]
          exact small
        rw [Nat.mod_eq_of_lt below]
        omega
      rw [strides, places, top, cons.injEq, ih (Nat.mod_lt v power)]
      simp [place]

end

/-! ## Groups -/

section

variable {α : Type}

/-- Groups one behind the other with a separator between them. -/
def joined (sep : α) (first : List α) (rest : List (List α)) : List α := first ++ rest.flatMap (sep :: ·)

structure Cut (size : Nat) (first : List α) (rest : List (List α)) : Prop where
  nonempty : first ≠ []
  atMost : first.length ≤ size
  whole : ∀ group ∈ rest, group.length = size

variable {size : Nat}

theorem length_flatten_of_forall {groups : List (List α)} (whole : ∀ group ∈ groups, group.length = size) :
    groups.flatten.length = groups.length * size := by
  rw [length_flatten, eq_replicate_of_mem (l := groups.map length) (a := size)]
  · simp
  · intro n member
    obtain ⟨group, inside, rfl⟩ := mem_map.1 member
    exact whole group inside

theorem flatten_inj {groups groups' : List (List α)} (whole : ∀ group ∈ groups, group.length = size)
    (whole' : ∀ group ∈ groups', group.length = size) (many : groups.length = groups'.length)
    (same : groups.flatten = groups'.flatten) : groups = groups' := by
  induction groups generalizing groups' with
  | nil => exact (length_eq_zero_iff.1 many.symm).symm
  | cons group groups ih =>
    obtain ⟨group', groups', rfl⟩ := exists_cons_of_length_eq_add_one many.symm
    have sizes : group.length = group'.length := (whole _ mem_cons_self).trans (whole' _ mem_cons_self).symm
    obtain ⟨rfl, rest⟩ := append_inj same sizes
    rw [ih (fun _ member => whole _ (mem_cons_of_mem _ member))
      (fun _ member => whole' _ (mem_cons_of_mem _ member)) (by simpa using many) rest]

/-- A text is cut into groups in one way. -/
theorem Cut.unique {first first' : List α} {rest rest' : List (List α)} (cut : Cut size first rest)
    (cut' : Cut size first' rest') (same : first ++ rest.flatten = first' ++ rest'.flatten) :
    first = first' ∧ rest = rest' := by
  have lengths := congrArg length same
  rw [length_append, length_append, length_flatten_of_forall cut.whole, length_flatten_of_forall cut'.whole] at lengths
  have positive := length_pos_iff.2 cut.nonempty
  have positive' := length_pos_iff.2 cut'.nonempty
  have atMost := cut.atMost
  have atMost' := cut'.atMost
  -- the first groups have between one and `size` letters, so there are as many others on both sides
  have many : rest.length = rest'.length := by
    rcases Nat.lt_trichotomy rest.length rest'.length with less | equal | more
    · have := Nat.mul_le_mul_right size less
      rw [Nat.succ_mul] at this
      omega
    · exact equal
    · have := Nat.mul_le_mul_right size more
      rw [Nat.succ_mul] at this
      omega
  rw [many] at lengths
  obtain ⟨rfl, flat⟩ := append_inj same (by omega)
  exact ⟨rfl, flatten_inj cut.whole cut'.whole many flat⟩

theorem filter_joined {sep : α} [DecidableEq α] {first : List α} {rest : List (List α)} (clean : sep ∉ first)
    (cleanRest : ∀ group ∈ rest, sep ∉ group) : (joined sep first rest).filter (· != sep) = first ++ rest.flatten := by
  have kept : ∀ group : List α, sep ∉ group → group.filter (· != sep) = group := by
    intro group absent
    rw [filter_eq_self]
    intro a inside
    simpa using fun same : a = sep => absent (same ▸ inside)
  rw [joined, filter_append, kept first clean]
  congr 1
  induction rest with
  | nil => rfl
  | cons group rest ih =>
    rw [flatMap_cons, filter_append, flatten_cons, ih fun later member => cleanRest later (mem_cons_of_mem _ member)]
    rw [filter_cons_of_neg (by simp), kept group (cleanRest group mem_cons_self)]

end

end RouterApps.Theory.Radix
