/-
# Theory.Table -- fixed tables searched from the front

A table is a list of entries that is never resized: a lookup returns the first
entry that matches, and the operations rewrite entries in place.

* `updateFirst p f` rewrites the entry that `find? p` returns, and no other;
  `splitNth p n` splits the table at the entry that matches for the `n`-th time.
* `firstFrom` and `lastFrom` are the loops that search for the first and for the
  last match with an index.
* `Distinct key blank` says that no two entries share a key, except the key
  `blank` that marks an unused entry.  So "the first entry with this key" is "the
  entry with this key" (`Distinct.eq_of_mem`).  It is kept by every rewrite that
  leaves an entry's key alone or blanks it, and by writing a key that no other
  entry holds (`Distinct.set`).
-/
import Mathlib

namespace RouterApps.Theory.Table

open List Option

/-! ## Rewriting the first match -/

variable {α : Type}

section

/-- Rewrite the first entry that satisfies `p`; without one, nothing changes. -/
def updateFirst (p : α → Bool) (f : α → α) : List α → List α
  | [] => []
  | a :: rest => if p a then f a :: rest else a :: updateFirst p f rest

variable {p : α → Bool} {f : α → α}

variable {l before after : List α} {a b : α} {n : Nat}

theorem updateFirst_of_none (absent : l.find? p = none) : updateFirst p f l = l := by
  induction l with
  | nil => rfl
  | cons a rest ih =>
    simp only [find?_cons] at absent
    split at absent
    · cases absent
    · rename_i no
      simp [updateFirst, no, ih absent]

theorem updateFirst_split (found : l.find? p = some a) :
    ∃ before after, l = before ++ a :: after ∧ p a = true ∧ (∀ b ∈ before, p b = false) ∧
      updateFirst p f l = before ++ f a :: after := by
  induction l with
  | nil => cases found
  | cons b rest ih =>
    simp only [find?_cons] at found
    split at found
    · rename_i yes
      cases found
      exact ⟨[], rest, rfl, yes, by simp, by simp [updateFirst, yes]⟩
    · rename_i no
      obtain ⟨before, after, rfl, yes, skipped, updated⟩ := ih found
      refine ⟨b :: before, after, rfl, yes, ?_, by simp [updateFirst, no, updated]⟩
      intro c member
      rcases mem_cons.1 member with rfl | inside
      · exact no
      · exact skipped c inside

theorem filter_eq_filter_iff {q : α → Bool} : l.filter p = l.filter q ↔ ∀ a ∈ l, p a = q a := by
  refine ⟨fun same a inside => ?_, filter_congr⟩
  have both : a ∈ l.filter p ↔ a ∈ l.filter q := by rw [same]
  simp only [mem_filter, inside, true_and] at both
  exact Bool.eq_iff_iff.2 both

theorem updateFirst_at (earlier : ∀ b ∈ before, p b = false) (holds : p a = true) :
    updateFirst p f (before ++ a :: after) = before ++ f a :: after := by
  induction before with
  | nil => simp [updateFirst, holds]
  | cons b rest ih =>
    obtain ⟨no, earlier⟩ := forall_mem_cons.1 earlier
    simp [updateFirst, no, ih earlier]

/-- What the rewrite keeps of its entry, it keeps of all. -/
theorem map_updateFirst {β : Type} {g : α → β} (keeps : ∀ a, g (f a) = g a) (l : List α) :
    (updateFirst p f l).map g = l.map g := by
  induction l with
  | nil => rfl
  | cons a rest ih => by_cases holds : p a <;> simp [updateFirst, holds, keeps, ih]

/-- With distinct keys, the rewrite of the first entry with a key is the rewrite of all. -/
theorem updateFirst_eq_map {κ : Type} [DecidableEq κ] {key : α → κ} (apart : (l.map key).Nodup) (k : κ) :
    updateFirst (fun a => key a = k) f l = l.map fun a => if key a = k then f a else a := by
  induction l with
  | nil => rfl
  | cons a rest ih =>
    obtain ⟨fresh, apart⟩ := nodup_cons.1 apart
    by_cases own : key a = k
    · have others : ∀ b ∈ rest, (if key b = k then f b else b) = b := by
        intro b inside
        rw [if_neg]
        rintro rfl
        exact fresh (List.mem_map.2 ⟨b, inside, own.symm⟩)
      simp only [updateFirst, own, decide_true, if_true, map_cons, map_congr_left others, List.map_id']
    · simp [updateFirst, own, ih apart]

theorem mem_updateFirst (member : b ∈ updateFirst p f l) : b ∈ l ∨ ∃ a, l.find? p = some a ∧ b = f a := by
  cases found : l.find? p with
  | none => exact .inl (updateFirst_of_none found ▸ member)
  | some a =>
    obtain ⟨before, after, rfl, -, -, updated⟩ := updateFirst_split (f := f) found
    rw [updated] at member
    simp only [mem_append, mem_cons] at member ⊢
    rcases member with h | rfl | h
    · exact .inl (.inl h)
    · exact .inr ⟨a, rfl, rfl⟩
    · exact .inl (.inr (.inr h))

theorem mem_updateFirst_of_ne (member : b ∈ l) (other : ∀ a, l.find? p = some a → b ≠ a) : b ∈ updateFirst p f l := by
  cases found : l.find? p with
  | none => rwa [updateFirst_of_none found]
  | some a =>
    have ne := other a found
    obtain ⟨before, after, rfl, -, -, updated⟩ := updateFirst_split (f := f) found
    rw [updated]
    simp only [mem_append, mem_cons] at member ⊢
    rcases member with h | rfl | h
    · exact .inl h
    · exact absurd rfl ne
    · exact .inr (.inr h)

theorem mem_set_of_ne {i : Nat} {c : α} (member : a ∈ l)
    (overwritten : l[i]? = some b) (ne : a ≠ b) : a ∈ l.set i c := by
  obtain ⟨j, inBounds, rfl⟩ := getElem_of_mem member
  refine mem_iff_getElem.2 ⟨j, by simpa using inBounds, ?_⟩
  have apart : i ≠ j := by
    rintro rfl
    rw [getElem?_eq_getElem inBounds, some.injEq] at overwritten
    exact ne overwritten
  simp [apart]

theorem mem_updateFirst_of_find (found : l.find? p = some a) : f a ∈ updateFirst p f l := by
  obtain ⟨before, after, -, -, -, updated⟩ := updateFirst_split found
  rw [updated]
  simp

theorem find?_updateFirst (found : l.find? p = some a) (still : p (f a) = true) :
    (updateFirst p f l).find? p = some (f a) := by
  obtain ⟨before, after, -, -, skipped, updated⟩ := updateFirst_split found
  rw [updated, find?_append, find?_eq_none.2 (by simpa using skipped)]
  simp [still]

theorem find?_updateFirst_of_disjoint {q : α → Bool}
    (disjoint : ∀ a, p a = true → q a = false ∧ q (f a) = false) (l : List α) :
    (updateFirst p f l).find? q = l.find? q := by
  induction l with
  | nil => rfl
  | cons a rest ih =>
    simp only [updateFirst]
    split
    · rename_i yes
      obtain ⟨old, new⟩ := disjoint a yes
      simp [old, new]
    · simp only [find?_cons, ih]

/-- Split the list at the entry that satisfies `p` with `n` such entries before it. -/
def splitNth (p : α → Bool) : Nat → List α → Option (List α × α × List α)
  | _, [] => none
  | n, a :: rest =>
    if p a then
      match n with
      | 0 => some ([], a, rest)
      | n + 1 => (splitNth p n rest).map fun (before, b, after) => (a :: before, b, after)
    else (splitNth p n rest).map fun (before, b, after) => (a :: before, b, after)

theorem splitNth_eq_some
    (split : splitNth p n l = some (before, a, after)) : l = before ++ a :: after ∧ p a = true := by
  induction l generalizing n before with
  | nil => cases split
  | cons b rest ih =>
    have inner : ∀ {m : Nat}, (splitNth p m rest).map (fun (before, c, after) => (b :: before, c, after)) =
        some (before, a, after) → b :: rest = before ++ a :: after ∧ p a = true := by
      intro m mapped
      obtain ⟨⟨before', c, after'⟩, found, eq⟩ := map_eq_some_iff.1 mapped
      cases eq
      obtain ⟨rfl, yes⟩ := ih found
      exact ⟨rfl, yes⟩
    simp only [splitNth] at split
    split at split
    · rename_i yes
      cases n with
      | zero =>
        cases split
        exact ⟨rfl, yes⟩
      | succ n => exact inner split
    · exact inner split

theorem length_filter_of_splitNth
    (split : splitNth p n l = some (before, a, after)) : (before.filter p).length = n := by
  induction l generalizing n before with
  | nil => cases split
  | cons b rest ih =>
    simp only [splitNth] at split
    split at split
    · rename_i yes
      cases n with
      | zero =>
        cases split
        rfl
      | succ n =>
        obtain ⟨⟨before', c, after'⟩, found, eq⟩ := map_eq_some_iff.1 split
        cases eq
        rw [filter_cons_of_pos yes, length_cons, ih found]
    · rename_i no
      obtain ⟨⟨before', c, after'⟩, found, eq⟩ := map_eq_some_iff.1 split
      cases eq
      rw [filter_cons_of_neg no, ih found]

theorem splitNth_eq_none : splitNth p n l = none ↔ (l.filter p).length ≤ n := by
  induction l generalizing n with
  | nil => simp [splitNth]
  | cons b rest ih =>
    simp only [splitNth]
    split
    · rename_i yes
      rw [filter_cons_of_pos yes, length_cons]
      cases n with
      | zero => simp
      | succ n => rw [map_eq_none_iff, ih, Nat.succ_le_succ_iff]
    · rename_i no
      rw [filter_cons_of_neg no, map_eq_none_iff, ih]

theorem updateFirst_of_splitNth (split : splitNth p 0 l = some (before, a, after)) :
    updateFirst p f l = before ++ f a :: after := by
  induction l generalizing before with
  | nil => cases split
  | cons b rest ih =>
    simp only [splitNth, updateFirst] at split ⊢
    split at split
    · rename_i yes
      cases split
      simp [yes]
    · rename_i no
      obtain ⟨⟨before', c, after'⟩, found, eq⟩ := map_eq_some_iff.1 split
      cases eq
      simp [no, ih found]

theorem find?_eq_splitNth (l : List α) : l.find? p = (splitNth p 0 l).map (·.2.1) := by
  induction l with
  | nil => rfl
  | cons a rest ih =>
    simp only [splitNth, find?_cons]
    cases p a with
    | true => rfl
    | false =>
      simp only [ih, Option.map_map, Bool.false_eq_true, if_false]
      rfl

theorem find?_eq_none_of_splitNth : splitNth p 0 l = none ↔ l.find? p = none := by
  rw [find?_eq_splitNth, map_eq_none_iff]

theorem find?_of_splitNth (split : splitNth p 0 l = some (before, a, after)) : l.find? p = some a := by
  rw [find?_eq_splitNth, split]
  rfl

theorem splitNth_map {β : Type} {g : α → β} {q : β → Bool} (same : ∀ a, q (g a) = p a) (n : Nat) (l : List α) :
    splitNth q n (l.map g) = (splitNth p n l).map fun (before, a, after) => (before.map g, g a, after.map g) := by
  induction l generalizing n with
  | nil => rfl
  | cons a rest ih =>
    simp only [map_cons, splitNth, same]
    split
    · cases n with
      | zero => rfl
      | succ n => simp only [ih, Option.map_map]; rfl
    · simp only [ih, Option.map_map]
      rfl

end

/-! ## Searching with an index -/

section

/-- The loop that keeps the last entry that satisfies `p`, with its index; `found` is what earlier
entries gave. -/
def lastFrom (p : α → Bool) : List α → Nat → Option (Nat × α) → Option (Nat × α)
  | [], _, found => found
  | a :: rest, i, found => lastFrom p rest (i + 1) (if p a then some (i, a) else found)

/-- The first entry that satisfies `p`, with its index. -/
def firstFrom (p : α → Bool) : List α → Nat → Option (Nat × α)
  | [], _ => none
  | a :: rest, i => if p a then some (i, a) else firstFrom p rest (i + 1)

variable {p : α → Bool}

theorem firstFrom_eq_none {l : List α} {i : Nat} : firstFrom p l i = none ↔ ∀ a ∈ l, p a = false := by
  induction l generalizing i with
  | nil => simp [firstFrom]
  | cons a rest ih => by_cases holds : p a <;> simp [firstFrom, holds, ih]

theorem firstFrom_of_split {before after : List α} {a : α} (holds : p a = true)
    (absent : ∀ b ∈ before, p b = false) (i : Nat) :
    firstFrom p (before ++ a :: after) i = some (i + before.length, a) := by
  induction before generalizing i with
  | nil => simp [firstFrom, holds]
  | cons b rest ih =>
    obtain ⟨no, absent⟩ := forall_mem_cons.1 absent
    simp only [cons_append, firstFrom, no, ih absent, length_cons]
    simp only [Bool.false_eq_true, if_false, some.injEq, Prod.mk.injEq, and_true]
    omega

theorem lastFrom_of_none {l : List α} (absent : ∀ a ∈ l, p a = false) (i : Nat)
    (found : Option (Nat × α)) : lastFrom p l i found = found := by
  induction l generalizing i found with
  | nil => rfl
  | cons a rest ih =>
    obtain ⟨no, absent⟩ := forall_mem_cons.1 absent
    simp [lastFrom, no, ih absent]

theorem lastFrom_append (before after : List α) (i : Nat) (found : Option (Nat × α)) :
    lastFrom p (before ++ after) i found = lastFrom p after (i + before.length) (lastFrom p before i found) := by
  induction before generalizing i found with
  | nil => rfl
  | cons a rest ih =>
    simp only [cons_append, lastFrom, ih, length_cons]
    congr 1
    omega

theorem lastFrom_of_split {before after : List α} {a : α} (holds : p a = true)
    (absent : ∀ b ∈ after, p b = false) (i : Nat) (found : Option (Nat × α)) :
    lastFrom p (before ++ a :: after) i found = some (i + before.length, a) := by
  rw [lastFrom_append]
  simp only [lastFrom, holds]
  exact lastFrom_of_none absent _ _

theorem first_split (p : α → Bool) (l : List α) : (∀ a ∈ l, p a = false) ∨
    ∃ before a after, l = before ++ a :: after ∧ p a = true ∧ ∀ b ∈ before, p b = false := by
  induction l with
  | nil => simp
  | cons a rest ih =>
    by_cases holds : p a
    · exact .inr ⟨[], a, rest, rfl, holds, by simp⟩
    · rcases ih with absent | ⟨before, b, after, rfl, yes, earlier⟩
      · exact .inl (forall_mem_cons.2 ⟨by simpa using holds, absent⟩)
      · refine .inr ⟨a :: before, b, after, rfl, yes, ?_⟩
        exact forall_mem_cons.2 ⟨by simpa using holds, earlier⟩

theorem last_split (p : α → Bool) (l : List α) : (∀ a ∈ l, p a = false) ∨
    ∃ before a after, l = before ++ a :: after ∧ p a = true ∧ ∀ b ∈ after, p b = false := by
  induction l with
  | nil => simp
  | cons a rest ih =>
    rcases ih with absent | ⟨before, b, after, rfl, holds, behind⟩
    · by_cases holds : p a
      · exact .inr ⟨[], a, rest, rfl, holds, absent⟩
      · exact .inl (forall_mem_cons.2 ⟨by simpa using holds, absent⟩)
    · exact .inr ⟨a :: before, b, after, rfl, holds, behind⟩

end

/-! ## Keys that occur once -/

section

variable {α κ : Type} {key : α → κ} {blank : κ}

/-- No two entries of the table share a key other than `blank`. -/
def Distinct (key : α → κ) (blank : κ) (l : List α) : Prop :=
  l.Pairwise fun a b => key a = key b → key a = blank

instance [DecidableEq κ] (l : List α) : Decidable (Distinct key blank l) :=
  inferInstanceAs (Decidable (l.Pairwise fun a b => key a = key b → key a = blank))

variable {a b : α} {l : List α}

theorem distinct_replicate (n : Nat) (unused : key a = blank) : Distinct key blank (List.replicate n a) :=
  pairwise_replicate.2 (.inr fun _ => unused)

section

variable (distinct : Distinct key blank l)

include distinct

theorem Distinct.eq_of_mem (ha : a ∈ l) (hb : b ∈ l) (same : key a = key b) (used : key a ≠ blank) : a = b := by
  by_contra ne
  have : Std.Symm fun a b : α => key a = key b → key a = blank :=
    ⟨fun x y h e => e.trans (h e.symm)⟩
  exact used (List.Pairwise.forall distinct ha hb ne same)

theorem Distinct.index_eq {i j : Nat}
    (ha : l[i]? = some a) (hb : l[j]? = some b) (same : key a = key b) (used : key a ≠ blank) : i = j := by
  obtain ⟨hi, rfl⟩ := List.getElem?_eq_some_iff.1 ha
  obtain ⟨hj, rfl⟩ := List.getElem?_eq_some_iff.1 hb
  have apart := pairwise_iff_getElem.1 distinct
  rcases Nat.lt_trichotomy i j with before | same' | behind
  · exact absurd (apart i j hi hj before same) used
  · exact same'
  · exact absurd (same.trans (apart j i hj hi behind same.symm)) used

/-- A rewrite of every entry keeps keys distinct when it keeps or blanks each key. -/
theorem Distinct.map {f : α → α}
    (keeps : ∀ a, key (f a) = key a ∨ key (f a) = blank) : Distinct key blank (l.map f) := by
  refine pairwise_map.2 (List.Pairwise.imp ?_ distinct)
  intro a b apart same
  rcases keeps a with ka | ka
  · rcases keeps b with kb | kb
    · rw [ka]
      exact apart (ka ▸ kb ▸ same)
    · exact same.trans kb
  · exact ka

theorem Distinct.updateFirst {p : α → Bool} {f : α → α} (keeps : ∀ a, key (f a) = key a ∨ key (f a) = blank) :
    Distinct key blank (updateFirst p f l) := by
  cases found : l.find? p with
  | none => rwa [updateFirst_of_none found]
  | some a =>
    obtain ⟨before, after, rfl, -, -, updated⟩ := updateFirst_split (f := f) found
    rw [updated]
    simp only [Distinct, pairwise_append, pairwise_cons, mem_cons] at distinct ⊢
    obtain ⟨hbefore, ⟨hhead, hafter⟩, hcross⟩ := distinct
    refine ⟨hbefore, ⟨fun b member same => ?_, hafter⟩, fun b member c mc same => ?_⟩
    · rcases keeps a with ka | ka
      · exact ka.trans (hhead b member (ka.symm.trans same))
      · exact ka
    · rcases mc with rfl | inside
      · rcases keeps a with ka | ka
        · exact hcross b member a (.inl rfl) (same.trans ka)
        · exact same.trans ka
      · exact hcross b member c (.inr inside) same

/-- Writing an entry whose key no member holds keeps keys distinct. -/
theorem Distinct.set {i : Nat} (fresh : ∀ a ∈ l, key a = key b → key b = blank) : Distinct key blank (l.set i b) := by
  induction l generalizing i with
  | nil => exact distinct
  | cons a rest ih =>
    obtain ⟨hhead, hrest⟩ := pairwise_cons.1 distinct
    cases i with
    | zero =>
      refine pairwise_cons.2 ⟨fun c member same => ?_, hrest⟩
      exact fresh c (mem_cons_of_mem a member) same.symm
    | succ i =>
      refine pairwise_cons.2 ⟨fun c member same => ?_, ih hrest fun c member => fresh c (mem_cons_of_mem a member)⟩
      rcases mem_or_eq_of_mem_set member with inside | rfl
      · exact hhead c inside same
      · exact same.trans (fresh a (mem_cons_self) same)

end

theorem Distinct.replace {before after : List α} (distinct : Distinct key blank (before ++ a :: after))
    (fresh : ∀ c ∈ before ++ after, key c = key b → key b = blank) : Distinct key blank (before ++ b :: after) := by
  simp only [Distinct, pairwise_append, pairwise_cons, mem_cons] at distinct ⊢
  obtain ⟨hbefore, ⟨-, hafter⟩, hcross⟩ := distinct
  refine ⟨hbefore, ⟨fun c member same => ?_, hafter⟩, fun c member c' mc' same => ?_⟩
  · exact fresh c (mem_append_right _ member) same.symm
  · rcases mc' with rfl | inside
    · exact same.trans (fresh c (mem_append_left _ member) same)
    · exact hcross c member c' (.inr inside) same

end

end RouterApps.Theory.Table
