/-
# Theory.Named -- lists of entries that are stored under a name

`store` puts an entry into a list: the entries of its name go, and it is appended.  After
any number of them the list holds, for each name, the last entry that was stored under it
and no other (`filter_stored`, `mem_stored`, `nodup_stored`).  Entries of different names
do not disturb each other, so whoever shares a name shares the entry.
-/
import Mathlib

namespace RouterApps.Theory.Named

open List

variable {ε κ : Type} [DecidableEq κ] {name : ε → κ}

def store (name : ε → κ) (entries : List ε) (e : ε) : List ε :=
  entries.filter (fun other => name other ≠ name e) ++ [e]

/-- The list after entries were stored one after the other, in an empty one. -/
def stored (name : ε → κ) (es : List ε) : List ε := es.foldl (store name) []

variable (es : List ε)

theorem stored_concat (e : ε) : stored name (es ++ [e]) = store name (stored name es) e := by
  simp [stored]

theorem filter_stored (k : κ) :
    (stored name es).filter (fun e => name e = k) = (es.filter fun e => name e = k).getLast?.toList := by
  induction es using reverseRecOn with
  | nil => rfl
  | append_singleton es e ih =>
    rw [stored_concat, store, filter_append, filter_filter]
    by_cases named : name e = k
    · subst named
      simp
    · have apart : (fun other => decide (name other = k) && decide (name other ≠ name e)) =
          fun other => decide (name other = k) := by
        funext other
        by_cases same : name other = k
        · simp [same, Ne.symm named]
        · simp [same]
      rw [apart, ih]
      simp [named]

theorem mem_stored {es : List ε} {e : ε} :
    e ∈ stored name es ↔ (es.filter fun other => name other = name e).getLast? = some e := by
  have inside : e ∈ (stored name es).filter (fun other => name other = name e) ↔ e ∈ stored name es := by
    simp
  rw [← inside, filter_stored, Option.mem_toList]

theorem nodup_stored : ((stored name es).map name).Nodup := by
  induction es using reverseRecOn with
  | nil => exact nodup_nil
  | append_singleton es e ih =>
    rw [stored_concat, store, map_append, nodup_append]
    refine ⟨ih.sublist (filter_sublist.map name), nodup_singleton _, ?_⟩
    intro k front k' back same
    obtain ⟨other, kept, rfl⟩ := mem_map.1 front
    obtain rfl : k' = name e := by simpa using back
    simpa [same] using (mem_filter.1 kept).2

theorem exists_eq_singleton_iff {l : List ε} (nodup : l.Nodup) : (∃ e, l = [e]) ↔ ∃! e, e ∈ l := by
  constructor
  · rintro ⟨e, rfl⟩
    exact ⟨e, mem_singleton_self e, fun other member => mem_singleton.1 member⟩
  · rintro ⟨e, member, unique⟩
    cases l with
    | nil => cases member
    | cons first rest =>
      refine ⟨first, congrArg (cons first) (eq_nil_iff_forall_not_mem.2 fun later inside => ?_)⟩
      have same : later = first := (unique later (mem_cons_of_mem _ inside)).trans (unique first mem_cons_self).symm
      exact (nodup_cons.1 nodup).1 (same ▸ inside)

end RouterApps.Theory.Named
