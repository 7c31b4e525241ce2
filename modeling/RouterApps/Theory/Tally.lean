/-
# Theory.Tally -- counters that count the members of a list by class

A system keeps a list of live members, and for each class a counter that is meant to
be the number of live members of that class.  Counters are raised and lowered
(`raise`, `lower`; a counter at 0 stays there) beside the operations on the list.

`Tallied` is the agreement of the two.  It is kept by adding, removing and moving a
member together with its counter.  When a member changes its class, agreement is kept
only if the counters follow the change (`Tallied.unmoved_iff`, `Tallied.move_iff`).
-/
import Mathlib

namespace RouterApps.Theory.Tally

open List Function

variable {α ι : Type} [DecidableEq ι]

/-! ## Counting -/

section

variable {p : α → Bool} {live : List α} {j : Nat} {a b : α}

theorem countP_eraseIdx (found : live[j]? = some a) :
    (live.eraseIdx j).countP p + (if p a then 1 else 0) = live.countP p := by
  induction live generalizing j with
  | nil => simp at found
  | cons c rest ih =>
    cases j with
    | zero =>
      obtain rfl : c = a := by simpa using found
      simp [countP_cons]
    | succ j =>
      have := ih found
      simp only [eraseIdx_cons_succ, countP_cons]
      omega

theorem countP_set_add (found : live[j]? = some a) :
    (live.set j b).countP p + (if p a then 1 else 0) = live.countP p + (if p b then 1 else 0) := by
  obtain ⟨inside, rfl⟩ := List.getElem?_eq_some_iff.1 found
  have counted : (if p live[j] then 1 else 0) ≤ live.countP p := by
    split
    · rename_i holds
      exact countP_pos_iff.2 ⟨live[j], getElem_mem inside, holds⟩
    · exact Nat.zero_le _
  rw [countP_set inside]
  omega

end

/-! ## Counters -/

def raise (counts : ι → Nat) (i : ι) : ι → Nat := update counts i (counts i + 1)

/-- A counter at 0 is left alone. -/
def lower (counts : ι → Nat) (i : ι) : ι → Nat := update counts i (counts i - 1)

variable (counts : ι → Nat)

theorem raise_apply (i j : ι) : raise counts i j = counts j + if j = i then 1 else 0 := by
  unfold raise
  by_cases same : j = i
  · subst same
    simp
  · simp [same]

theorem lower_apply (i j : ι) : lower counts i j = counts j - if j = i then 1 else 0 := by
  unfold lower
  by_cases same : j = i
  · subst same
    simp
  · simp [same]

/-- Every counter is the number of live members of its class. -/
def Tallied (cls : α → ι) (counts : ι → Nat) (live : List α) : Prop :=
  ∀ i, counts i = live.countP fun a => cls a = i

section

variable {cls : α → ι} {counts : ι → Nat} {live : List α} {j : Nat} {a b : α}

theorem tallied_nil : Tallied cls (fun _ => 0) [] := fun _ => rfl

section

variable (tallied : Tallied cls counts live)

include tallied

theorem Tallied.pos (member : a ∈ live) : 0 < counts (cls a) := by
  rw [tallied (cls a)]
  exact countP_pos_iff.2 ⟨a, member, by simp⟩

theorem Tallied.add (a : α) : Tallied cls (raise counts (cls a)) (live ++ [a]) := by
  intro i
  rw [raise_apply, tallied i]
  simp [eq_comm]

section

variable (found : live[j]? = some a)

include found

theorem Tallied.remove : Tallied cls (lower counts (cls a)) (live.eraseIdx j) := by
  intro i
  have counted := countP_eraseIdx (p := fun a => cls a = i) found
  simp only [decide_eq_true_eq] at counted
  rw [lower_apply, tallied i]
  simp only [eq_comm (a := i)]
  omega

theorem Tallied.refile : Tallied cls (raise (lower counts (cls a)) (cls b)) (live.set j b) := by
  intro i
  have counted := countP_set_add (p := fun a => cls a = i) (b := b) found
  have positive := tallied.pos (mem_of_getElem? found)
  simp only [decide_eq_true_eq] at counted
  rw [raise_apply, lower_apply, tallied i]
  rw [tallied (cls a)] at positive
  simp only [eq_comm (a := i)]
  by_cases old : cls a = i
  · subst old
    simp only [if_true] at counted ⊢
    omega
  · simp only [old, if_false] at counted ⊢
    omega

/-- Without a change of counters, a member may change only within its class. -/
theorem Tallied.unmoved_iff : Tallied cls counts (live.set j b) ↔ cls b = cls a := by
  constructor
  · intro after
    have counted := countP_set_add (p := fun c => cls c = cls a) (b := b) found
    rw [← after (cls a), ← tallied (cls a)] at counted
    by_contra different
    simp [different] at counted
  · intro same i
    have counted := countP_set_add (p := fun c => cls c = i) (b := b) found
    rw [tallied i]
    simp only [same] at counted
    omega

/-- With the counter of `y` raised and the old one lowered, agreement is kept exactly if the member
went to `y`. -/
theorem Tallied.move_iff (y : ι) : Tallied cls (lower (raise counts y) (cls a)) (live.set j b) ↔ cls b = y := by
  have positive := tallied.pos (mem_of_getElem? found)
  constructor
  · intro after
    have counted := countP_set_add (p := fun c => cls c = y) (b := b) found
    rw [← after y, ← tallied y, lower_apply, raise_apply] at counted
    simp only [decide_eq_true_eq, if_true, eq_comm (a := y)] at counted
    by_contra different
    split at counted <;> omega
  · rintro rfl i
    have counted := countP_set_add (p := fun c => cls c = i) (b := b) found
    rw [lower_apply, raise_apply, tallied i]
    simp only [decide_eq_true_eq, eq_comm (a := i)] at counted ⊢
    by_cases old : cls a = i <;> omega

end

end

end

end RouterApps.Theory.Tally
