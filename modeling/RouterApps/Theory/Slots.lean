/-
# Theory.Slots -- an array of slots as a finite set of keys

An array of a fixed number of slots holds keys.  The slot for a key is the one that has it,
else the first free slot (`slotFor`).  A free slot may still have the key it was last used
for, so that the keys the array holds are those of the slots in use (`held`).  In an array whose
keys are distinct

* there is no slot for a key exactly when the array holds other keys only, as many as it has
  slots (`slotFor_eq_none_iff`);
* a write to the slot for a key adds the key to the set or takes it out (`held_set`), and keys
  stay distinct (`Kept.set`);
* a write to the slot for a key moves no other (`Kept.sits_set`).
-/
import RouterApps.Theory.Table

namespace RouterApps.Theory.Slots

open Theory.Table List Option

/-- An array of `n` slots. -/
structure SlotArray (α : Type) (n : Nat) where
  list : List α
  size : list.length = n

variable {α : Type}

section

variable {n : Nat}

def SlotArray.all (n : Nat) (a : α) : SlotArray α n := ⟨replicate n a, length_replicate⟩

def SlotArray.set (t : SlotArray α n) (i : Nat) (a : α) : SlotArray α n :=
  ⟨t.list.set i a, by rw [length_set, t.size]⟩

end

/-! ## The slot for a key -/

section

/-- The loop over the slots: `i` is the index of the head, `idx` the first free slot so far. -/
def slotFor (same free : α → Bool) : List α → Nat → Option Nat → Option Nat
  | [], _, idx => idx
  | s :: rest, i, idx =>
    if same s then some i
    else slotFor same free rest (i + 1) (if free s && idx.isNone then some i else idx)

theorem slotFor_eq (same free : α → Bool) (l : List α) (i : Nat) (idx : Option Nat) : slotFor same free l i idx =
      ((firstFrom same l i).map Prod.fst).or (idx.or ((firstFrom free l i).map Prod.fst)) := by
  induction l generalizing i idx with
  | nil => simp [slotFor, firstFrom]
  | cons s rest ih =>
    by_cases own : same s
    · simp [slotFor, firstFrom, own]
    · by_cases unused : free s <;> cases idx <;> simp [slotFor, firstFrom, own, unused, ih]

end

/-! ## The keys held -/

section

variable {α κ : Type} [DecidableEq κ] {key : α → κ} {free : α → Bool} {blank : κ}

/-- The keys of the slots in use. -/
def held (key : α → κ) (free : α → Bool) (l : List α) : Finset κ :=
  ((l.filter fun s => !free s).map key).toFinset

variable {l : List α}

theorem mem_held {k : κ} : k ∈ held key free l ↔ ∃ s ∈ l, free s = false ∧ key s = k := by
  simp [held, and_assoc]

structure Kept (key : α → κ) (free : α → Bool) (blank : κ) (l : List α) : Prop where
  distinct : Distinct key blank l
  named : ∀ s ∈ l, free s = false → key s ≠ blank

variable {a : α} {j : Nat}

omit [DecidableEq κ] in
theorem kept_replicate (n : Nat) (unused : free a = true) (unnamed : key a = blank) :
    Kept key free blank (replicate n a) where
  distinct := distinct_replicate n unnamed
  named := by
    intro s inside used
    rw [eq_of_mem_replicate inside, unused] at used
    cases used

theorem held_replicate (n : Nat) (unused : free a = true) : held key free (replicate n a) = ∅ := by
  rw [held, filter_eq_nil_iff.2]
  · rfl
  · intro s inside
    rw [eq_of_mem_replicate inside, unused]
    decide

section

variable (kept : Kept key free blank l)

include kept

theorem Kept.card_held : (held key free l).card = (l.filter fun s => !free s).length := by
  have apart : ((l.filter fun s => !free s).map key).Nodup := by
    refine pairwise_map.2 ?_
    refine (List.Pairwise.filter _ kept.distinct).imp_of_mem ?_
    intro a b ha _ shared same
    obtain ⟨inside, used⟩ := mem_filter.1 ha
    exact kept.named a inside (by simpa using used) (shared same)
  rw [held, toFinset_card_of_nodup apart, length_map]

theorem Kept.full_iff : l.length ≤ (held key free l).card ↔ ∀ s ∈ l, free s = false := by
  rw [kept.card_held]
  constructor
  · intro full
    have all := length_filter_eq_length_iff.1 (Nat.le_antisymm (length_filter_le _ l) full)
    exact fun s inside => by simpa using all s inside
  · intro used
    exact le_of_eq (length_filter_eq_length_iff.2 fun s inside => by simp [used s inside]).symm

theorem Kept.slotFor_eq_none_iff (k : κ) :
    slotFor (fun s => key s = k) free l 0 none = none ↔ k ∉ held key free l ∧ l.length ≤ (held key free l).card := by
  simp only [slotFor_eq, none_or, or_eq_none_iff, map_eq_none_iff, firstFrom_eq_none,
    decide_eq_false_iff_not, kept.full_iff, mem_held, not_exists, not_and]
  constructor
  · rintro ⟨others, used⟩
    exact ⟨fun s inside _ => others s inside, used⟩
  · rintro ⟨others, used⟩
    exact ⟨fun s inside => others s inside (used s inside), used⟩

theorem Kept.slotFor_split {k : κ} (real : k ≠ blank) {i : Nat}
    (found : slotFor (fun s => key s = k) free l 0 none = some i) :
    ∃ before a after, l = before ++ a :: after ∧ i = before.length ∧ (key a = k ∨ free a = true) ∧
      ∀ s ∈ before ++ after, key s ≠ k := by
  rw [slotFor_eq] at found
  rcases first_split (fun s => decide (key s = k)) l with absent | ⟨before, a, after, rfl, own, earlier⟩
  · rw [firstFrom_eq_none.2 absent] at found
    rcases first_split free l with used | ⟨before, a, after, rfl, unused, earlier⟩
    · rw [firstFrom_eq_none.2 used] at found
      cases found
    · rw [firstFrom_of_split unused earlier] at found
      refine ⟨before, a, after, rfl, ?_, .inr unused, fun s inside => ?_⟩
      · simpa using found.symm
      · refine of_decide_eq_false (absent s ?_)
        rcases mem_append.1 inside with front | back
        · exact mem_append_left _ front
        · exact mem_append_right _ (mem_cons_of_mem a back)
  · rw [firstFrom_of_split (p := fun s => decide (key s = k)) own earlier] at found
    have owned : key a = k := of_decide_eq_true own
    refine ⟨before, a, after, rfl, ?_, .inl owned, fun s inside shared => ?_⟩
    · simpa using found.symm
    · rcases mem_append.1 inside with front | back
      · exact of_decide_eq_false (earlier s front) shared
      · have behind := (pairwise_append.1 kept.distinct).2.1
        have only := (pairwise_cons.1 behind).1 s back (owned.trans shared.symm)
        exact real (owned.symm.trans only)

end

variable {k : κ} {i : Nat} {s : α}

theorem held_split (key : α → κ) (free : α → Bool) (before : List α) (a : α) (after : List α) :
    held key free (before ++ a :: after) =
      if free a then held key free (before ++ after) else insert (key a) (held key free (before ++ after)) := by
  ext k'
  cases unused : free a <;> simp [held, unused]

theorem Kept.held_set (kept : Kept key free blank l) (real : k ≠ blank)
    (found : slotFor (fun s => key s = k) free l 0 none = some i) (own : free s = false → key s = k) :
    held key free (l.set i s) =
      if free s then (held key free l).erase k else insert k (held key free l) := by
  obtain ⟨before, a, after, rfl, rfl, place, others⟩ := kept.slotFor_split real found
  have written : (before ++ a :: after).set before.length s = before ++ s :: after := by simp
  have absent : k ∉ held key free (before ++ after) := by
    rw [mem_held]
    rintro ⟨t, inside, -, named⟩
    exact others t inside named
  have rest : held key free (before ++ after) = (held key free (before ++ a :: after)).erase k := by
    rw [held_split key free before a after]
    split
    · exact (Finset.erase_eq_of_notMem absent).symm
    · rename_i used
      obtain rfl := place.resolve_right used
      exact (Finset.erase_insert absent).symm
  rw [written, held_split, rest]
  cases unused : free s with
  | true => rfl
  | false =>
    rw [own unused]
    ext k'
    by_cases same : k' = k <;> simp [same]

/-- A write to the slot for a key keeps keys distinct, also if it blanks the slot. -/
theorem Kept.set (kept : Kept key free blank l) (real : k ≠ blank)
    (found : slotFor (fun s => key s = k) free l 0 none = some i) (own : key s = k ∨ key s = blank)
    (named : free s = false → key s = k) : Kept key free blank (l.set i s) := by
  obtain ⟨before, a, after, rfl, rfl, -, others⟩ := kept.slotFor_split real found
  have written : (before ++ a :: after).set before.length s = before ++ s :: after := by simp
  constructor
  · rw [written]
    refine kept.distinct.replace fun t inside shared => ?_
    rcases own with mine | unnamed
    · exact absurd (shared.trans mine) (others t inside)
    · exact unnamed
  · intro t inside used
    rcases mem_or_eq_of_mem_set inside with old | rfl
    · exact kept.named t old used
    · rw [named used]
      exact real

theorem mem_of_ne_middle {before after : List α} {b : α} (here : (before ++ b :: after)[j]? = some a)
    (apart : j ≠ before.length) : a ∈ before ++ after := by
  rw [mem_append]
  rw [getElem?_append] at here
  split at here
  · exact .inl (mem_of_getElem? here)
  · obtain ⟨n, behind⟩ : ∃ n, j - before.length = n + 1 := ⟨j - before.length - 1, by omega⟩
    rw [behind] at here
    exact Or.inr (mem_of_getElem? here)

/-- The key is held by slot `i`, with the content `a`. -/
def Sits (key : α → κ) (free : α → Bool) (l : List α) (k : κ) (i : Nat) (a : α) : Prop :=
  l[i]? = some a ∧ free a = false ∧ key a = k

section

variable (kept : Kept key free blank l)

include kept

theorem Kept.slotFor_of_sits (sits : Sits key free l k i a) : slotFor (fun s => key s = k) free l 0 none = some i := by
  obtain ⟨here, used, own⟩ := sits
  have inside := mem_of_getElem? here
  have real : k ≠ blank := own ▸ kept.named a inside used
  cases found : slotFor (fun s => key s = k) free l 0 none with
  | none => exact absurd (mem_held.2 ⟨a, inside, used, own⟩) ((kept.slotFor_eq_none_iff k).1 found).1
  | some j =>
    obtain ⟨before, b, after, rfl, rfl, -, others⟩ := kept.slotFor_split real found
    by_contra apart
    exact others a (mem_of_ne_middle here fun same => apart (congrArg some same.symm)) own

theorem Kept.slotFor_ne_of_sits (real : k ≠ blank)
    (found : slotFor (fun s => key s = k) free l 0 none = some i) {k' : κ} (other : k' ≠ k)
    (sits : Sits key free l k' j a) : j ≠ i := by
  rintro rfl
  obtain ⟨before, b, after, rfl, rfl, place, -⟩ := kept.slotFor_split real found
  obtain ⟨here, used, own⟩ := sits
  rw [getElem?_append_right (Nat.le_refl _), Nat.sub_self] at here
  obtain rfl := some.inj here
  rcases place with mine | unused
  · exact other (own.symm.trans mine)
  · rw [used] at unused
    cases unused

/-- After a write to the slot for a key, the key sits there or nowhere, and the others where they
sat. -/
theorem Kept.sits_set (real : k ≠ blank)
    (found : slotFor (fun s => key s = k) free l 0 none = some i) (own : free s = false → key s = k) (k' : κ)
    (j : Nat) (a : α) : Sits key free (l.set i s) k' j a ↔
      (k' = k ∧ free s = false ∧ j = i ∧ a = s) ∨ (k' ≠ k ∧ Sits key free l k' j a) := by
  obtain ⟨before, b, after, split, length, place, others⟩ := kept.slotFor_split real found
  have bound : i < l.length := by rw [split, length_append, length_cons]; omega
  constructor
  · rintro ⟨here, used, named⟩
    by_cases same : j = i
    · rw [same, getElem?_set_self bound] at here
      obtain rfl := some.inj here
      exact .inl ⟨named.symm.trans (own used), used, same, rfl⟩
    · rw [getElem?_set_ne (Ne.symm same)] at here
      refine .inr ⟨fun shared => others a ?_ (named.trans shared), here, used, named⟩
      exact mem_of_ne_middle (split ▸ here) (length ▸ same)
  · rintro (⟨rfl, used, rfl, rfl⟩ | ⟨other, sits⟩)
    · exact ⟨getElem?_set_self bound, used, own used⟩
    · have apart := kept.slotFor_ne_of_sits real found other sits
      exact ⟨(getElem?_set_ne apart.symm).trans sits.1, sits.2⟩

end

end

end RouterApps.Theory.Slots
