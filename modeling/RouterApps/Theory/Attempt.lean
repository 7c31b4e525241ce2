/-
# Theory.Attempt -- operations that can fail midway

An operation returns a value or fails, and leaves a state behind in either case: what it did before
it failed is not undone.  `Triple` has a postcondition for the value and one for the failure; a
sequence is followed with `Triple.bind`.

Whether an operation fails may be known from a part of the state.  `Shadow` says that an operation on that
part goes as the operation on the whole does.
-/
import Mathlib

namespace RouterApps.Theory

/-- An operation on the states `σ`; no value is a failure. -/
def Attempt (σ α : Type) : Type := σ → Option α × σ

namespace Attempt

variable {σ α β : Type}

/-- The operation fails and does nothing. -/
def fail : Attempt σ α := fun s => (none, s)

instance : Monad (Attempt σ) where
  pure a := fun s => (some a, s)
  bind m next := fun s =>
    match m s with
    | (some a, s') => next a s'
    | (none, s') => (none, s')

/-- From a state with `pre`, the operation ends in `post a` with the value `a`, or fails in
`failed`. -/
def Triple (pre : σ → Prop) (m : Attempt σ α) (post : α → σ → Prop) (failed : σ → Prop) : Prop :=
  ∀ s, pre s →
    match m s with
    | (some a, s') => post a s'
    | (none, s') => failed s'

variable {pre : σ → Prop} {m : Attempt σ α} {post : α → σ → Prop} {failed : σ → Prop}

theorem Triple.pure {a : α} (holds : ∀ s, pre s → post a s) :
    Triple pre (Pure.pure a : Attempt σ α) post failed := holds

theorem Triple.fail (holds : ∀ s, pre s → failed s) : Triple pre (fail : Attempt σ α) post failed := holds

theorem Triple.assuming {fact : Prop} (rest : fact → Triple pre m post failed) :
    Triple (fun s => fact ∧ pre s) m post failed := fun s holds => rest holds.1 s holds.2

variable {next : α → Attempt σ β}

theorem Triple.bind {last : β → σ → Prop} (first : Triple pre m post failed)
    (rest : ∀ a, Triple (post a) (next a) last failed) : Triple pre (m >>= next) last failed := by
  intro s holds
  have ended := first s holds
  simp only [Bind.bind]
  generalize m s = result at ended
  obtain ⟨value, s'⟩ := result
  cases value with
  | none => exact ended
  | some a => exact rest a s' ended

/-- The two ways an operation ends, from what it is known to do. -/
theorem Triple.cases (known : Triple pre m post failed) {s : σ} (holds : pre s) :
    (∃ a, (m s).1 = some a ∧ post a (m s).2) ∨ ((m s).1 = none ∧ failed (m s).2) := by
  have ended := known s holds
  generalize m s = result at ended
  obtain ⟨value, s'⟩ := result
  cases value with
  | none => exact .inr ⟨rfl, ended⟩
  | some a => exact .inl ⟨a, rfl, ended⟩

section

variable {τ α' β' : Type} {f : σ → τ} {V : α → α' → Prop} {W : β → β' → Prop} {m' : Attempt τ α'}

/-- On the part `f` of the state, `m'` goes as `m` does: it fails when `m` fails, and the values are
related. -/
def Shadow (f : σ → τ) (V : α → α' → Prop) (m : Attempt σ α) (m' : Attempt τ α') : Prop :=
  ∀ s, (m' (f s)).2 = f (m s).2 ∧ Option.Rel V (m s).1 (m' (f s)).1

theorem Shadow.pure {a : α} {a' : α'} (related : V a a') : Shadow f V (Pure.pure a) (Pure.pure a') :=
  fun _ => ⟨rfl, .some related⟩

theorem Shadow.fail : Shadow f V fail fail := fun _ => ⟨rfl, .none⟩

theorem Shadow.bind {next' : α' → Attempt τ β'} (first : Shadow f V m m')
    (rest : ∀ a a', V a a' → Shadow f W (next a) (next' a')) : Shadow f W (m >>= next) (m' >>= next') := by
  intro s
  obtain ⟨state, value⟩ := first s
  simp only [Bind.bind]
  generalize m s = result at state value
  generalize m' (f s) = result' at state value
  obtain ⟨v, t⟩ := result
  obtain ⟨v', t'⟩ := result'
  obtain rfl : t' = f t := state
  cases value with
  | none => exact ⟨rfl, .none⟩
  | some related => exact rest _ _ related t

theorem Shadow.isSome_eq (shadow : Shadow f V m m') (s : σ) : (m s).1.isSome = (m' (f s)).1.isSome := by
  have value := (shadow s).2
  generalize (m s).1 = v at value
  generalize (m' (f s)).1 = v' at value
  cases value with
  | none | some _ => rfl

end

end Attempt

end RouterApps.Theory
