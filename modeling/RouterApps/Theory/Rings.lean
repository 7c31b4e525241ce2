/-
# Theory.Rings -- lists linked in both directions

Addresses are numbers.  0 is no item: its links are the head and the tail, so a list is a ring through 0, and an item is
taken out by the same two writes wherever it is (`Chain.unlink`).
-/
import Mathlib

namespace RouterApps.Theory.Rings

open List Option Function

/-- The links lead from `z` through the items to 0. -/
def Path (next : ℕ → ℕ) : ℕ → List ℕ → Prop
  | z, [] => next z = 0
  | z, a :: as => next z = a ∧ Path next a as

structure Chain (next prev : ℕ → ℕ) (as : List ℕ) : Prop where
  nodup : (0 :: as).Nodup
  forth : Path next 0 as
  back : Path prev 0 as.reverse

/-- At most `n` items from `p` on. -/
def walk (next : ℕ → ℕ) : ℕ → ℕ → List ℕ
  | 0, _ => []
  | n + 1, p => if p = 0 then [] else p :: walk next n (next p)

/-- The first item from `p` on that passes the test, 0 for none, looking at `n` at most. -/
def seek (next : ℕ → ℕ) (test : ℕ → Bool) : ℕ → ℕ → ℕ
  | 0, _ => 0
  | n + 1, p => if p = 0 then 0 else if test p then p else seek next test n (next p)

variable {as xs ys : List ℕ}

section

variable {next next' : ℕ → ℕ} {y z a : ℕ}

theorem Path.move (path : Path next z as) (first : next' y = next z) (rest : ∀ a ∈ as, next' a = next a) :
    Path next' y as := by
  induction as generalizing y z with
  | nil => exact first.trans path
  | cons a as ih =>
    exact ⟨first.trans path.1, ih path.2 (rest a mem_cons_self) fun b inside => rest b (mem_cons_of_mem a inside)⟩

theorem Path.first (path : Path next z as) : next z = as.head?.getD 0 := by
  cases as with
  | nil => exact path
  | cons => exact path.1

theorem Path.rest (path : Path next z (xs ++ a :: ys)) : Path next a ys := by
  induction xs generalizing z with
  | nil => exact path.2
  | cons x xs ih => exact ih path.2

theorem getLast?_getD_mem (as : List ℕ) (z : ℕ) : as.getLast?.getD z ∈ z :: as := by
  cases last : as.getLast? with
  | none => exact mem_cons_self
  | some b => exact mem_cons_of_mem z (mem_of_getLast? last)

theorem Path.unlink (path : Path next z (xs ++ a :: ys)) (nodup : (z :: (xs ++ a :: ys)).Nodup) :
    Path (update next (xs.getLast?.getD z) (next a)) z (xs ++ ys) := by
  induction xs generalizing z with
  | nil =>
    refine path.2.move (by simp) fun b inside => update_of_ne ?_ _ _
    rintro rfl
    simp_all
  | cons x xs ih =>
    obtain ⟨outside, nodup⟩ := nodup_cons.1 nodup
    rw [getLast?_cons, getD_some]
    refine ⟨(update_of_ne ?_ _ _).trans path.1, ih path.2 nodup⟩
    rintro rfl
    have := getLast?_getD_mem xs x
    simp_all

theorem Path.append (path : Path next z as) (nodup : (z :: as).Nodup) {c : ℕ} (new : c ∉ z :: as) :
    Path (update (update next c 0) (as.getLast?.getD z) c) z (as ++ [c]) := by
  induction as generalizing z with
  | nil => simp_all [Path]
  | cons a as ih =>
    obtain ⟨outside, nodup⟩ := nodup_cons.1 nodup
    simp only [mem_cons (b := z), not_or] at new
    have apart : z ≠ as.getLast?.getD a := fun same => outside (same ▸ getLast?_getD_mem as a)
    rw [getLast?_cons, getD_some]
    refine ⟨?_, ih path.2 nodup new.2⟩
    rw [update_of_ne apart, update_of_ne (Ne.symm new.1)]
    exact path.1

theorem Path.walk_eq (path : Path next z as) (real : 0 ∉ as) {n : ℕ} (enough : as.length ≤ n) :
    walk next n (next z) = as := by
  induction as generalizing z n with
  | nil =>
    have ended : next z = 0 := path
    cases n <;> simp [walk, ended]
  | cons a as ih =>
    obtain ⟨m, rfl⟩ := Nat.exists_eq_add_of_le' (Nat.le_of_add_left_le enough)
    rw [walk, path.1, if_neg (ne_of_not_mem_cons real).symm,
      ih path.2 (not_mem_of_not_mem_cons real) (Nat.le_of_succ_le_succ enough)]

theorem Path.seek_eq (path : Path next z as) (real : 0 ∉ as) (test : ℕ → Bool) {n : ℕ} (enough : as.length ≤ n) :
    seek next test n (next z) = (as.find? test).getD 0 := by
  induction as generalizing z n with
  | nil =>
    have ended : next z = 0 := path
    cases n <;> simp [seek, ended]
  | cons a as ih =>
    obtain ⟨m, rfl⟩ := Nat.exists_eq_add_of_le' (Nat.le_of_add_left_le enough)
    rw [seek, path.1, if_neg (ne_of_not_mem_cons real).symm, find?_cons,
      ih path.2 (not_mem_of_not_mem_cons real) (Nat.le_of_succ_le_succ enough)]
    cases test a <;> rfl

end

namespace Chain

variable {next prev : ℕ → ℕ} {a : ℕ}

theorem unlink (chain : Chain next prev (xs ++ a :: ys)) :
    Chain (update next (prev a) (next a)) (update prev (next a) (prev a)) (xs ++ ys) := by
  have back := chain.back
  have nodup := ((reverse_perm _).cons 0).nodup_iff.2 chain.nodup
  rw [reverse_append, reverse_cons, append_assoc, singleton_append] at back nodup
  have before := back.rest.first
  have behind := chain.forth.rest.first
  refine ⟨chain.nodup.sublist (by simp), ?_, ?_⟩
  · rw [before, head?_reverse]
    exact chain.forth.unlink chain.nodup
  · have cut := back.unlink nodup
    rwa [getLast?_reverse, ← behind, ← reverse_append] at cut

theorem append (chain : Chain next prev as) {c : ℕ} (new : c ∉ 0 :: as) :
    Chain (update (update next c 0) (prev 0) c)
      (update (update prev c (prev 0)) 0 c) (as ++ [c]) := by
  have last := head?_reverse ▸ chain.back.first
  refine ⟨?_, ?_, ?_⟩
  · rw [← concat_eq_append]
    exact chain.nodup.concat new
  · rw [last]
    exact chain.forth.append chain.nodup new
  · rw [reverse_append]
    refine ⟨update_self .., chain.back.move ?_ fun b inside => ?_⟩
    · rw [update_of_ne (ne_of_not_mem_cons new), update_self]
    · have real := (nodup_cons.1 chain.nodup).1
      rw [update_of_ne (by rintro rfl; simp_all), update_of_ne (by rintro rfl; simp_all)]

end Chain

end RouterApps.Theory.Rings
