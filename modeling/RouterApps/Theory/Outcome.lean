/-
# Theory.Outcome -- computations that can go wrong

A computation of C code ends with a result, does something it must not do, or does not
end.  `Safe` says that the second does not happen.  A sequence is safe exactly if its
first part is, and, with the result of the first, its second part (`safe_bind`).
-/
import Mathlib

namespace RouterApps.Theory

/-- What a computation comes to; `stuck` is one that does not end. -/
inductive Outcome (φ α : Type) where
  | done (a : α)
  | fault (f : φ)
  | stuck
deriving DecidableEq

namespace Outcome

variable {φ α β : Type}

/-- One computation after the other. -/
def bind (o : Outcome φ α) (next : α → Outcome φ β) : Outcome φ β :=
  match o with
  | done a => next a
  | fault f => fault f
  | stuck => stuck

def result : Outcome φ α → Option α
  | done a => some a
  | fault _ => none
  | stuck => none

/-- A computation that is defined unless it does not end. -/
def ofOption : Option α → Outcome φ α
  | some a => done a
  | none => stuck

/-- Nothing goes wrong. -/
def Safe (o : Outcome φ α) : Prop := ∀ f, o ≠ fault f

@[simp] theorem safe_done (a : α) : (done a : Outcome φ α).Safe := fun _ wrong => by cases wrong

@[simp] theorem safe_stuck : (stuck : Outcome φ α).Safe := fun _ wrong => by cases wrong

@[simp] theorem not_safe_fault (f : φ) : ¬(fault f : Outcome φ α).Safe := fun safe => safe f rfl

@[simp] theorem safe_ofOption (o : Option α) : (ofOption o : Outcome φ α).Safe := by cases o <;> simp [ofOption]

variable (o : Outcome φ α)

theorem safe_bind (next : α → Outcome φ β) : (o.bind next).Safe ↔ o.Safe ∧ ∀ a, o = done a → (next a).Safe := by
  cases o <;> simp [bind]

theorem safe_bind_of_safe {next : α → Outcome φ β} (safe : ∀ a, (next a).Safe) : (o.bind next).Safe ↔ o.Safe := by
  rw [safe_bind]
  exact and_iff_left fun a _ => safe a

end Outcome

end RouterApps.Theory
