/-
# Theory.Siblings -- the children of a node

The children of a node are a list without repetitions.  One of them is moved by being inserted before another; the
others keep their order.  Written as `others.insertIdx q x`, such a move changes `q` only (`insertBefore_insertIdx`).
-/
import Mathlib

namespace RouterApps.Theory.Siblings

open List

section

variable {α : Type} (stops : α → Bool) (more : ℕ → Bool)

/-- Go from the first child to the next while the count `i` asks for more: the children from there on, `some none` at a child
that stops the loop, and `none` if there is none left. -/
def seek : ℕ → List α → Option (Option (List α))
  | _, [] => some (some [])
  | i, refer :: rest =>
    if more i then
      match rest with
      | [] => none
      | x :: _ => if stops x then some none else seek (i + 1) rest
    else some (some (refer :: rest))

variable {stops more}

theorem seek_eq {front back : List α} {x : α} {i k : ℕ} (nonempty : front ≠ [])
    (limit : ∀ j < front.length, more (i + j) = decide (j < k)) (free : ∀ y ∈ front, stops y = false) (stop : stops x) :
    seek stops more i (front ++ x :: back) =
      some (if k < front.length then some ((front ++ x :: back).drop k) else none) := by
  induction front generalizing i k with
  | nil => exact absurd rfl nonempty
  | cons refer front ih =>
    have here : more i = decide (0 < k) := limit 0 (by simp)
    rw [seek.eq_def]
    cases k with
    | zero => simp_all
    | succ k =>
      cases front with
      | nil => simp_all
      | cons y front =>
        have later : ∀ j < (y :: front).length, more (i + 1 + j) = decide (j < k) := fun j inside => by
          rw [Nat.add_right_comm, Nat.add_assoc, limit (j + 1) (Nat.succ_lt_succ inside)]
          simp
        simpa [here, free y (by simp)] using ih (cons_ne_nil y front) later fun z inside => free z (mem_cons_of_mem refer inside)

end

variable {α : Type} [DecidableEq α]

def nextSibling (l : List α) (x : α) : Option α := l[l.idxOf x + 1]?

def previousSibling (l : List α) (x : α) : Option α := if l.idxOf x = 0 then none else l[l.idxOf x - 1]?

/-- `x` is taken out and put back before `ref`; before itself it stays where it is. -/
def insertBefore (l : List α) (x ref : α) : List α :=
  if x = ref then l else (l.erase x).insertIdx ((l.erase x).idxOf ref) x

variable {l : List α}

theorem idxOf_of_getElem? {i : ℕ} {x : α} (nodup : l.Nodup) (found : l[i]? = some x) : l.idxOf x = i := by
  obtain ⟨inside, rfl⟩ := List.getElem?_eq_some_iff.1 found
  exact nodup.idxOf_getElem i inside

theorem insertIdx_erase {i : ℕ} {x : α} (nodup : l.Nodup) (found : l[i]? = some x) :
    (l.erase x).insertIdx i x = l := by
  have index := idxOf_of_getElem? nodup found
  obtain ⟨inside, rfl⟩ := List.getElem?_eq_some_iff.1 found
  rw [erase_eq_eraseIdx_of_idxOf index, insertIdx_eraseIdx_getElem inside]

omit [DecidableEq α] in
theorem insertIdx_append {r : List α} {q : ℕ} (x : α) (inside : q ≤ l.length) :
    (l ++ r).insertIdx q x = l.insertIdx q x ++ r := by
  induction l generalizing q with
  | nil => simp [Nat.le_zero.1 inside]
  | cons y l ih =>
    cases q with
    | zero => rfl
    | succ q => simp [ih (Nat.le_of_succ_le_succ inside)]

section

variable {others : List α} {x : α} {q : ℕ} (nodup : (x :: others).Nodup) (inside : q ≤ others.length)

include nodup inside

omit [DecidableEq α] in
theorem nodup_insertIdx : (others.insertIdx q x).Nodup := (perm_insertIdx x others inside).nodup_iff.2 nodup

theorem idxOf_insertIdx : (others.insertIdx q x).idxOf x = q :=
  idxOf_of_getElem? (nodup_insertIdx nodup inside) (by rw [getElem?_insertIdx_self, if_pos inside])

theorem erase_insertIdx : (others.insertIdx q x).erase x = others := by
  rw [erase_eq_eraseIdx_of_idxOf (idxOf_insertIdx nodup inside), eraseIdx_insertIdx_self]

theorem insertBefore_insertIdx {j : ℕ} {ref : α} (found : (others.insertIdx q x)[j]? = some ref) :
    insertBefore (others.insertIdx q x) x ref = others.insertIdx (if j ≤ q then j else j - 1) x := by
  have moved : ∀ {i : ℕ}, others[i]? = some ref → insertBefore (others.insertIdx q x) x ref = others.insertIdx i x := by
    intro i found
    have other : x ≠ ref := fun same => (nodup_cons.1 nodup).1 (same ▸ mem_of_getElem? found)
    rw [insertBefore, if_neg other, erase_insertIdx nodup inside, idxOf_of_getElem? nodup.of_cons found]
  rcases Nat.lt_trichotomy j q with before | rfl | behind
  · rw [getElem?_insertIdx_of_lt before] at found
    rw [moved found, if_pos (Nat.le_of_lt before)]
  · rw [getElem?_insertIdx_self, if_pos inside, Option.some.injEq] at found
    rw [insertBefore, if_pos found, if_pos (Nat.le_refl j)]
  · rw [getElem?_insertIdx_of_gt behind] at found
    rw [moved found, if_neg (Nat.not_le_of_lt behind)]

end

end RouterApps.Theory.Siblings
