/-
# Theory.Lifetime -- things that are opened and closed

A trace opens and closes keys.  `follow` runs it from the keys that are open, and has no result when a key
is opened that is open, or closed that is not.  Along a trace that can be followed, what was opened is
closed once, unless it is open at the end and was not opened again (`closes_of_follow`).
-/
import Mathlib

namespace RouterApps.Theory.Lifetime

open List Option

variable {κ : Type} [DecidableEq κ]

inductive Event (κ : Type)
  | opened (k : κ)
  | closed (k : κ)
deriving DecidableEq

/-- The keys that are open after a trace. -/
def follow : List κ → List (Event κ) → Option (List κ)
  | live, [] => some live
  | live, .opened k :: rest => if k ∈ live then none else follow (k :: live) rest
  | live, .closed k :: rest => if k ∈ live then follow (live.erase k) rest else none

theorem follow_append (live : List κ) (before after : List (Event κ)) :
    follow live (before ++ after) = (follow live before).bind fun live' => follow live' after := by
  induction before generalizing live with
  | nil => rfl
  | cons event before ih =>
    cases event with
    | opened k =>
      simp only [cons_append, follow]
      split
      · rfl
      · exact ih (k :: live)
    | closed k =>
      simp only [cons_append, follow]
      split
      · exact ih (live.erase k)
      · rfl

variable {live live' : List κ} {trace : List (Event κ)} {k : κ}

theorem nodup_of_follow (distinct : live.Nodup) (followed : follow live trace = some live') : live'.Nodup := by
  induction trace generalizing live with
  | nil => exact some.inj followed ▸ distinct
  | cons event trace ih =>
    cases event with
    | opened k =>
      rw [follow] at followed
      split at followed
      · cases followed
      · rename_i fresh
        exact ih (nodup_cons.2 ⟨fresh, distinct⟩) followed
    | closed k =>
      rw [follow] at followed
      split at followed
      · exact ih (distinct.erase k) followed
      · cases followed

/-- How often `k` is closed before it is opened again. -/
def closes (k : κ) (trace : List (Event κ)) : Nat := (trace.takeWhile fun e => e ≠ .opened k).count (.closed k)

theorem closes_of_notMem (distinct : live.Nodup) (absent : k ∉ live) (followed : follow live trace = some live') :
    closes k trace = 0 ∧ (Event.opened k ∉ trace → k ∉ live') := by
  induction trace generalizing live with
  | nil => exact ⟨rfl, fun _ => some.inj followed ▸ absent⟩
  | cons event trace ih =>
    cases event with
    | opened other =>
      rw [follow] at followed
      split at followed
      · cases followed
      · rename_i fresh
        by_cases same : other = k
        · subst same
          exact ⟨by simp [closes], fun never => absurd mem_cons_self never⟩
        · obtain ⟨none_, still⟩ := ih (nodup_cons.2 ⟨fresh, distinct⟩) (by simp [absent, Ne.symm same]) followed
          exact ⟨by simpa [closes, same] using none_, fun never => still fun later => never (mem_cons_of_mem _ later)⟩
    | closed other =>
      rw [follow] at followed
      split at followed
      · rename_i open_
        have different : other ≠ k := fun same => absent (same ▸ open_)
        obtain ⟨none_, still⟩ := ih (distinct.erase other) (fun member => absent (mem_of_mem_erase member)) followed
        exact ⟨by simpa [closes, different] using none_, fun never => still fun later => never (mem_cons_of_mem _ later)⟩
      · cases followed

theorem closes_of_mem (distinct : live.Nodup) (present : k ∈ live)
    (followed : follow live trace = some live') (ends : k ∉ live' ∨ Event.opened k ∈ trace) : closes k trace = 1 := by
  induction trace generalizing live with
  | nil =>
    obtain rfl := some.inj followed
    rcases ends with absent | later
    · exact absurd present absent
    · cases later
  | cons event trace ih =>
    cases event with
    | opened other =>
      rw [follow] at followed
      split at followed
      · cases followed
      · rename_i fresh
        have different : other ≠ k := fun same => fresh (same ▸ present)
        have rest := ih (nodup_cons.2 ⟨fresh, distinct⟩) (mem_cons_of_mem _ present) followed
          (ends.imp_right fun later => by simpa [Ne.symm different] using later)
        simpa [closes, different] using rest
    | closed other =>
      rw [follow] at followed
      split at followed
      · by_cases same : other = k
        · subst same
          have none_ := (closes_of_notMem (distinct.erase other) (fun member => (distinct.mem_erase_iff.1 member).1 rfl)
            followed).1
          simpa [closes] using none_
        · have rest := ih (distinct.erase other) ((mem_erase_of_ne (Ne.symm same)).2 present) followed
            (ends.imp_right fun later => by simpa using later)
          simpa [closes, same] using rest
      · cases followed

/-- What was opened is closed once, unless it is open at the end and was not opened again. -/
theorem closes_of_follow {before after : List (Event κ)} (distinct : live.Nodup)
    (followed : follow live (before ++ .opened k :: after) = some live') (ends : k ∉ live' ∨ Event.opened k ∈ after) :
    closes k after = 1 := by
  rw [follow_append, bind_eq_some_iff] at followed
  obtain ⟨middle, first, rest⟩ := followed
  rw [follow] at rest
  split at rest
  · cases rest
  · rename_i fresh
    exact closes_of_mem (nodup_cons.2 ⟨fresh, nodup_of_follow distinct first⟩) mem_cons_self rest ends

end RouterApps.Theory.Lifetime
