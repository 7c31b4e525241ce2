/-
# Theory.Cursor -- a walk along a linked list that frees nodes on its way

A node is named by its key.  The walk reads a node, and if it is hit, saves the name of the next
node and then unlinks and frees the node that the hit one names as its target.  It goes on at the
saved node, or reads the link of the hit node if there was none to save.  So it reads a freed node
in two cases: a hit node that is the last frees itself, and a hit node frees the node that it has
saved.

`sweep_eq` says that these are the only cases, and that a walk without them frees exactly the
targets of the hit nodes, if a node that is a target is its own target.
-/
import Mathlib

namespace RouterApps.Theory.Cursor

open List Option

inductive Fault
  | freed
  | fuel
deriving DecidableEq

variable {α κ : Type}

section

variable [DecidableEq κ] (key : α → κ)

/-- A node that is still linked. -/
def read (l : List α) (k : κ) : Option α := l.find? fun a => key a = k

/-- The link of a node. -/
def next : List α → κ → Option κ
  | [], _ => none
  | a :: rest, k => if key a = k then rest.head?.map key else next rest k

def unlink (l : List α) (k : κ) : List α := l.eraseP fun a => key a = k

/-- The walk from a node on. -/
def sweep (hit : α → Bool) (target : α → κ) : Nat → Option κ → List α → Except Fault (List α)
  | _, none, l => .ok l
  | 0, some _, _ => .error .fuel
  | fuel + 1, some k, l =>
    match read key l k with
    | none => .error .freed
    | some a =>
      if hit a then
        match next key l k with
        | some saved => sweep hit target fuel (some saved) (unlink key l (target a))
        | none =>
          match read key (unlink key l (target a)) k with
          | none => .error .freed
          | some _ => sweep hit target fuel (next key (unlink key l (target a)) k) (unlink key l (target a))
      else sweep hit target fuel (next key l k) l

end

/-! ## Nodes with distinct keys -/

variable {a : α} {l : List α}

section

variable [DecidableEq κ] {key : α → κ}

theorem read_of_split {before after : List α} (apart : ((before ++ a :: after).map key).Nodup) :
    read key (before ++ a :: after) (key a) = some a := by
  rw [map_append] at apart
  have earlier : ∀ b ∈ before, key b ≠ key a := by
    intro b inside same
    exact disjoint_of_nodup_append apart (mem_map_of_mem inside) (same ▸ mem_cons_self)
  unfold read
  rw [find?_append, find?_eq_none.2 (by simpa using earlier)]
  simp

theorem read_eq_none {k : κ} (absent : ∀ a ∈ l, key a ≠ k) : read key l k = none :=
  find?_eq_none.2 (by simpa using absent)

theorem next_of_split {before after : List α} (apart : ((before ++ a :: after).map key).Nodup) :
    next key (before ++ a :: after) (key a) = after.head?.map key := by
  induction before with
  | nil => simp [next]
  | cons b rest ih =>
    rw [cons_append, map_cons, nodup_cons] at apart
    have other : key b ≠ key a := by
      intro same
      exact apart.1 (same ▸ mem_map_of_mem (by simp))
    simp only [cons_append, next, other]
    exact ih apart.2

theorem unlink_eq_filter (apart : (l.map key).Nodup) (k : κ) : unlink key l k = l.filter fun a => key a ≠ k := by
  induction l with
  | nil => rfl
  | cons a rest ih =>
    rw [map_cons, nodup_cons] at apart
    by_cases own : key a = k
    · subst own
      have others : ∀ b ∈ rest, key b ≠ key a := by
        intro b inside same
        exact apart.1 (same ▸ mem_map_of_mem inside)
      simp only [unlink, eraseP_cons, filter_cons, ne_eq]
      exact (filter_eq_self.2 (by simpa using others)).symm
    · have rest' := ih apart.2
      unfold unlink at rest' ⊢
      simp [own, rest']

end

/-! ## What a walk frees and where it fails -/

section

variable [DecidableEq κ] (key : α → κ) (hit : α → Bool) (target : α → κ)

/-- Freed by the time that the walk has passed the nodes in front. -/
def gone (before : List α) (z : α) : Bool := before.any fun w => hit w && decide (target w = key z)

/-- The nodes that are still linked then. -/
def present (before l : List α) : List α := l.filter fun z => !gone key hit target before z

/-- The node is reached and hit, and the walk goes on at a freed node: the last node that frees
itself, or the next node, which it frees. -/
def trapAt (before : List α) (a : α) (after : List α) : Bool :=
  !gone key hit target before a && hit a &&
    if key a = target a then (present key hit target before after).isEmpty
    else decide ((present key hit target before after).head?.map key = some (target a))

def trapped : List α → List α → Bool
  | _, [] => false
  | before, a :: rest => trapAt key hit target before a rest || trapped (before ++ [a]) rest

variable {key hit target}

theorem trapped_iff {before : List α} : trapped key hit target before l = true ↔
    ∃ front a after, l = front ++ a :: after ∧ trapAt key hit target (before ++ front) a after = true := by
  induction l generalizing before with
  | nil => simp [trapped]
  | cons b rest ih =>
    simp only [trapped, Bool.or_eq_true, ih]
    constructor
    · rintro (here | ⟨front, a, after, rfl, later⟩)
      · exact ⟨[], b, rest, rfl, by simpa using here⟩
      · exact ⟨b :: front, a, after, rfl, by simpa using later⟩
    · rintro ⟨front, a, after, split, fails⟩
      cases front with
      | nil =>
        obtain ⟨rfl, rfl⟩ := cons.inj split
        exact .inl (by simpa using fails)
      | cons c front =>
        obtain ⟨rfl, rfl⟩ := cons.inj split
        exact .inr ⟨front, a, after, rfl, by simpa using fails⟩

variable (before : List α)

theorem gone_append (a z : α) :
    gone key hit target (before ++ [a]) z = (gone key hit target before z || (hit a && decide (target a = key z))) := by
  simp [gone]

/-- A node that was freed before it is reached frees nothing more. -/
theorem gone_append_of_gone {before : List α} (own : ∀ b, key a = target b → target a = key a)
    (freed : gone key hit target before a = true) (z : α) :
    gone key hit target (before ++ [a]) z = gone key hit target before z := by
  rw [gone_append]
  cases earlier : gone key hit target before z with
  | true => rfl
  | false =>
    rw [Bool.false_or, Bool.and_eq_false_iff]
    refine .inr (decide_eq_false fun same => ?_)
    obtain ⟨w, inside, freeing⟩ := any_eq_true.1 freed
    obtain ⟨hitting, at'⟩ := (Bool.and_eq_true _ _).mp freeing
    have at' := of_decide_eq_true at'
    have again : gone key hit target before z = true := by
      refine any_eq_true.2 ⟨w, inside, ?_⟩
      rw [hitting, at', ← same, own w at'.symm]
      simp
    rw [earlier] at again
    cases again

variable (key target) in
theorem gone_append_of_unhit (spared : hit a = false) (z : α) :
    gone key hit target (before ++ [a]) z = gone key hit target before z := by
  rw [gone_append, spared, Bool.false_and, Bool.or_false]

theorem present_congr {before before' : List α}
    (same : ∀ z, gone key hit target before' z = gone key hit target before z) (l : List α) :
    present key hit target before' l = present key hit target before l := by
  unfold present
  simp only [same]

variable (key target) in
theorem present_append_of_hit (hitting : hit a = true) (l : List α) : present key hit target (before ++ [a]) l =
      (present key hit target before l).filter fun z => key z ≠ target a := by
  unfold present
  rw [List.filter_filter]
  refine filter_congr fun z _ => ?_
  rw [gone_append, hitting]
  by_cases same : key z = target a <;> simp [same, Ne.symm]

variable {whole before rest passed : List α} {a : α} {fuel : Nat}

variable (hit target passed) in
theorem nodup_present (apart : (whole.map key).Nodup) : ((present key hit target passed whole).map key).Nodup :=
  apart.sublist (filter_sublist.map key)

theorem present_cons_of_gone (freed : gone key hit target passed a = true) :
    present key hit target passed (a :: rest) = present key hit target passed rest := by
  simp [present, freed]

theorem present_cons_of_linked (linked : gone key hit target passed a = false) :
    present key hit target passed (a :: rest) = a :: present key hit target passed rest := by
  simp [present, linked]

theorem present_split (split : whole = before ++ a :: rest) (linked : gone key hit target passed a = false) :
    present key hit target passed whole =
      present key hit target passed before ++ a :: present key hit target passed rest := by
  rw [← present_cons_of_linked linked, split]
  simp [present]

section

variable (apart : (whole.map key).Nodup) (split : whole = before ++ a :: rest)
  (linked : gone key hit target before a = false)
include apart split linked

theorem read_present : read key (present key hit target before whole) (key a) = some a := by
  have alone := nodup_present hit target before apart
  rw [present_split split linked] at alone ⊢
  exact read_of_split alone

theorem next_present : next key (present key hit target before whole) (key a) =
    (present key hit target before rest).head?.map key := by
  have alone := nodup_present hit target before apart
  rw [present_split split linked] at alone ⊢
  exact next_of_split alone

omit split linked in
theorem unlink_present (hitting : hit a = true) : unlink key (present key hit target before whole) (target a) =
    present key hit target (before ++ [a]) whole := by
  rw [unlink_eq_filter (nodup_present hit target before apart), present_append_of_hit key target before hitting]

theorem sweep_unhit (spared : hit a = false) :
    sweep key hit target (fuel + 1) (some (key a)) (present key hit target before whole) =
      sweep key hit target fuel ((present key hit target before rest).head?.map key)
        (present key hit target before whole) := by
  rw [sweep, read_present apart split linked]
  simp only [spared, Bool.false_eq_true, if_false, next_present apart split linked]

section

variable (hitting : hit a = true)

include hitting

theorem sweep_saved {saved : κ} (follows : (present key hit target before rest).head?.map key = some saved) :
    sweep key hit target (fuel + 1) (some (key a)) (present key hit target before whole) =
      sweep key hit target fuel (some saved) (present key hit target (before ++ [a]) whole) := by
  rw [sweep, read_present apart split linked]
  simp only [hitting, if_true, next_present apart split linked, follows, unlink_present apart hitting]

theorem sweep_onto (follows : (present key hit target before rest).head?.map key = some (target a)) :
    sweep key hit target (fuel + 2) (some (key a)) (present key hit target before whole) = .error .freed := by
  rw [sweep_saved apart split linked hitting follows, sweep, read_eq_none]
  intro z inside
  rw [present_append_of_hit key target before hitting] at inside
  exact of_decide_eq_true (mem_filter.1 inside).2

theorem sweep_last (last : present key hit target before rest = []) :
    sweep key hit target (fuel + 1) (some (key a)) (present key hit target before whole) =
      if key a = target a then .error .freed else .ok (present key hit target (before ++ [a]) whole) := by
  rw [sweep, read_present apart split linked]
  simp only [hitting, if_true, next_present apart split linked, last, head?_nil, map_none, unlink_present apart hitting]
  by_cases itself : key a = target a
  · rw [if_pos itself, read_eq_none]
    intro z inside
    rw [present_append_of_hit key target before hitting] at inside
    rw [itself]
    exact of_decide_eq_true (mem_filter.1 inside).2
  · have still : gone key hit target (before ++ [a]) a = false := by
      rw [gone_append, linked, hitting]
      exact decide_eq_false (Ne.symm itself)
    have alone := nodup_present hit target (before ++ [a]) apart
    rw [if_neg itself]
    have none : present key hit target (before ++ [a]) rest = [] := by
      rw [present_append_of_hit key target before hitting, last]
      rfl
    have around := present_split split still
    rw [none] at around
    rw [around] at alone ⊢
    rw [read_of_split alone]
    simp only [next_of_split alone, head?_nil, map_none, sweep]

/-- The turn at a hit node fails at a trap, and else leads to the nodes that are left. -/
theorem sweep_hit (enough : rest.length ≤ fuel) :
    sweep key hit target (fuel + 1) (some (key a)) (present key hit target before whole) =
      if trapAt key hit target before a rest then .error .freed
      else sweep key hit target fuel ((present key hit target (before ++ [a]) rest).head?.map key)
        (present key hit target (before ++ [a]) whole) := by
  have passing := present_append_of_hit key target before hitting rest
  cases following : present key hit target before rest with
  | nil =>
    rw [sweep_last apart split linked hitting following, passing]
    by_cases itself : key a = target a <;> simp [trapAt, linked, hitting, following, sweep]
  | cons b more =>
    have follows : (present key hit target before rest).head?.map key = some (key b) := by
      rw [following]
      rfl
    by_cases onto : key b = target a
    · have other : key a ≠ key b := by
        have alone := nodup_present hit target before apart
        rw [present_split split linked, following] at alone
        intro same
        simp [nodup_append, same] at alone
      obtain ⟨fuel, rfl⟩ : ∃ n, fuel = n + 1 := by
        cases rest with
        | nil => cases following
        | cons _ _ => exact ⟨fuel - 1, by simp only [length_cons] at enough; omega⟩
      rw [sweep_onto apart split linked hitting (follows.trans (congrArg some onto))]
      simp [trapAt, linked, hitting, following, onto, onto ▸ other]
    · rw [sweep_saved apart split linked hitting follows, passing]
      by_cases itself : key a = target a <;> simp [trapAt, following, onto]

end

end

theorem sweep_present (apart : (whole.map key).Nodup) (own : ∀ a b, key a = target b → target a = key a)
    (split : whole = before ++ rest) (fuel : Nat) (enough : rest.length ≤ fuel) :
    sweep key hit target fuel ((present key hit target before rest).head?.map key)
        (present key hit target before whole) =
      if trapped key hit target before rest then .error .freed else .ok (present key hit target whole whole) := by
  induction rest generalizing before fuel with
  | nil =>
    subst split
    simp [present, sweep, trapped]
  | cons a rest ih =>
    have behind : whole = (before ++ [a]) ++ rest := by simp [split]
    rw [length_cons] at enough
    cases linked : gone key hit target before a with
    | true =>
      have same := gone_append_of_gone (own a) linked
      have later := ih behind fuel (by omega)
      rw [present_congr same, present_congr same] at later
      rw [present_cons_of_gone linked, trapped, trapAt, linked, later]
      rfl
    | false =>
      obtain ⟨fuel, rfl⟩ := Nat.exists_eq_add_of_le' (Nat.le_of_add_left_le enough)
      have later := ih behind fuel (by omega)
      rw [present_cons_of_linked linked, head?_cons, map_some, trapped]
      cases hitting : hit a with
      | false =>
        have same := gone_append_of_unhit key target before hitting
        rw [present_congr same, present_congr same] at later
        rw [sweep_unhit apart split linked hitting, later, trapAt, linked, hitting]
        rfl
      | true =>
        rw [sweep_hit apart split linked hitting (by omega), later]
        cases trapAt key hit target before a rest <;> rfl

/-- **A walk fails exactly at a trap, and else frees exactly the targets of the nodes that are hit.** -/
theorem sweep_eq (apart : (l.map key).Nodup) (own : ∀ a b, key a = target b → target a = key a)
    {fuel : Nat} (enough : l.length ≤ fuel) : sweep key hit target fuel (l.head?.map key) l =
      if trapped key hit target [] l then .error .freed else .ok (present key hit target l l) := by
  have start : present key hit target [] l = l := by simp [present, gone]
  rw [← sweep_present apart own (nil_append l).symm fuel enough, start]

/-- A walk that does not fail leaves a node, as the last node to be freed would be a trap. -/
theorem present_ne_nil (apart : (l.map key).Nodup) (own : ∀ a b, key a = target b → target a = key a)
    (start : l ≠ []) (safe : trapped key hit target [] l = false) : present key hit target l l ≠ [] := by
  intro none
  have freed : ∀ z ∈ l, ∃ w ∈ l, hit w = true ∧ target w = key z := by
    intro z inside
    have := filter_eq_nil_iff.1 none z inside
    simpa [gone] using this
  -- every node is freed, hence its own target, hence freed by itself
  have itself : ∀ z ∈ l, hit z = true ∧ target z = key z := by
    intro z inside
    obtain ⟨w, listed, hitting, at'⟩ := freed z inside
    obtain ⟨v, -, -, below⟩ := freed w listed
    have same := inj_on_of_nodup_map apart listed inside ((own w v below.symm).symm.trans at')
    rw [← same]
    exact ⟨hitting, own w v below.symm⟩
  obtain ⟨before, y, rfl⟩ := (eq_nil_or_concat' l).resolve_left start
  obtain ⟨hitting, at'⟩ := itself y (by simp)
  have linked : gone key hit target before y = false := by
    refine Bool.eq_false_iff.2 fun passed => ?_
    obtain ⟨w, inside, freeing⟩ := any_eq_true.1 passed
    have at' := of_decide_eq_true ((Bool.and_eq_true _ _).mp freeing).2
    have own' := (itself w (by simp [inside])).2
    rw [map_append] at apart
    refine disjoint_of_nodup_append apart (mem_map_of_mem inside) ?_
    rw [← own', at']
    exact mem_singleton.2 rfl
  have fails := trapped_iff.2 ⟨before, y, [], rfl, (by simp [trapAt, linked, hitting, at', present] :
    trapAt key hit target ([] ++ before) y [] = true)⟩
  rw [safe] at fails
  cases fails

end

end RouterApps.Theory.Cursor
