/-
# Theory.Registry -- bounded lists of entries with two unique keys

A `Registry first second cap` is a list of at most `cap` entries in which no two
share their `first` key and no two share their `second` key.

An entry can be appended exactly if both its keys are free and there is room
(`append_iff`); deleting the first entry that satisfies a predicate always gives a
registry (`erase`).

The last section is about arrays that hold such a list in their front part.
-/
import Mathlib

namespace RouterApps.Theory

open List

/-- At most `cap` entries, no two with one `first` key or one `second` key. -/
@[ext] structure Registry {ε α β : Type} (first : ε → α) (second : ε → β) (cap : Nat) where
  entries : List ε
  firsts : (entries.map first).Nodup
  seconds : (entries.map second).Nodup
  bounded : entries.length ≤ cap

namespace Registry

variable {ε α β : Type} {first : ε → α} {second : ε → β} {cap : Nat}

def empty : Registry first second cap := ⟨[], nodup_nil, nodup_nil, Nat.zero_le cap⟩

variable (r : Registry first second cap)

/-- No entry has one of the keys of `e`. -/
def Free (e : ε) : Prop := ∀ e' ∈ r.entries, first e' ≠ first e ∧ second e' ≠ second e

/-- Delete the first entry that satisfies `p`. -/
def erase (p : ε → Bool) : Registry first second cap where
  entries := r.entries.eraseP p
  firsts := r.firsts.sublist (eraseP_sublist.map first)
  seconds := r.seconds.sublist (eraseP_sublist.map second)
  bounded := Nat.le_trans eraseP_sublist.length_le r.bounded

theorem nodup_map_append_singleton {γ : Type} (key : ε → γ) (l : List ε) (e : ε) :
    ((l ++ [e]).map key).Nodup ↔ (l.map key).Nodup ∧ ∀ e' ∈ l, key e' ≠ key e := by
  simp [nodup_append]

theorem append_iff (e : ε) : (∃ r' : Registry first second cap, r'.entries = r.entries ++ [e]) ↔
      r.Free e ∧ r.entries.length < cap := by
  constructor
  · rintro ⟨r', grown⟩
    have firsts := r'.firsts
    have seconds := r'.seconds
    have bounded := r'.bounded
    rw [grown, nodup_map_append_singleton] at firsts seconds
    rw [grown, length_append, length_singleton] at bounded
    exact ⟨fun e' member => ⟨firsts.2 e' member, seconds.2 e' member⟩, by omega⟩
  · rintro ⟨free, room⟩
    refine ⟨⟨r.entries ++ [e], ?_, ?_, ?_⟩, rfl⟩
    · rw [nodup_map_append_singleton]
      exact ⟨r.firsts, fun e' member => (free e' member).1⟩
    · rw [nodup_map_append_singleton]
      exact ⟨r.seconds, fun e' member => (free e' member).2⟩
    · rw [length_append, length_singleton]
      omega

end Registry

/-! ## Arrays -/

section

variable {α : Type} {l : List α}

theorem take_succ_set {i : Nat} (room : i < l.length) (a : α) : (l.set i a).take (i + 1) = l.take i ++ [a] := by
  rw [take_succ_eq_append_getElem (by simpa using room), take_set_of_le (Nat.le_refl i)]
  simp

/-- Moving an element one place to the left moves the gap one place to the right. -/
theorem eraseIdx_set_succ {i : Nat} {a : α} (next : l[i + 1]? = some a) :
    (l.set i a).eraseIdx (i + 1) = l.eraseIdx i := by
  induction l generalizing i with
  | nil => rfl
  | cons b rest ih =>
    cases i with
    | zero =>
      obtain ⟨c, rest, rfl⟩ : ∃ c rest', rest = c :: rest' := by
        cases rest with
        | nil => cases next
        | cons c rest => exact ⟨c, rest, rfl⟩
      simp only [getElem?_cons_succ, getElem?_cons_zero, Option.some.injEq] at next
      simp [next]
    | succ i =>
      simpa using ih next

theorem eraseP_congr {p q : α → Bool} (agree : ∀ a ∈ l, p a = q a) : l.eraseP p = l.eraseP q := by
  induction l with
  | nil => rfl
  | cons a rest ih =>
    have inner := ih fun b member => agree b (mem_cons_of_mem a member)
    simp [eraseP_cons, agree a mem_cons_self, inner]

end

end RouterApps.Theory
