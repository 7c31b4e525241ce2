/-
# Theory.Charge -- programs that take references and give none back

A program with a counter takes references by raising it.  `Charges m a unit asks` says what such a program
comes to: it returns `a`, and it raises the counter by `unit` as many times as it asks for a reference,
which is never exactly if `asks` is false.  A sequence asks if one of its parts does (`Charges.bind`), and
for a program that asks at once it is enough to know what the rest returns (`Returns`).

For a system whose steps are such programs, `held_eq_zero_iff` says when the counter is still 0 at the end
of a run.
-/
import RouterApps.Theory.Run

namespace RouterApps.Theory

variable {α β : Type}

/-- The program returns `a`, and takes `unit` references each time it asks. -/
def Charges (m : StateM Nat α) (a : α) (unit : Nat) (asks : Prop) : Prop :=
  ∃ times, (times = 0 ↔ ¬asks) ∧ ∀ held, m held = (a, held + times * unit)

/-- The program returns `a`, however often it asks. -/
def Returns (m : StateM Nat α) (a : α) (unit : Nat) : Prop := ∃ asks, Charges m a unit asks

variable {next : α → StateM Nat β} {unit : Nat}

namespace Charges

variable {m : StateM Nat α} {a : α} {b : β} {asks later : Prop}

theorem pure (a : α) (unit : Nat) : Charges (Pure.pure a) a unit False :=
  ⟨0, by simp, fun held => by rw [Nat.zero_mul]; rfl⟩

theorem bind (first : Charges m a unit asks) (rest : Charges (next a) b unit later) :
    Charges (m >>= next) b unit (asks ∨ later) := by
  obtain ⟨times, never, ran⟩ := first
  obtain ⟨more, never', ran'⟩ := rest
  refine ⟨times + more, ?_, fun held => ?_⟩
  · rw [Nat.add_eq_zero_iff, never, never', not_or]
  · calc (m >>= next) held = next (m held).1 (m held).2 := rfl
      _ = (b, held + times * unit + more * unit) := by rw [ran held]; exact ran' _
      _ = (b, held + (times + more) * unit) := by rw [Nat.add_mul, Nat.add_assoc]

theorem congr (charges : Charges m a unit asks) (same : asks ↔ later) : Charges m a unit later := by
  rwa [propext same] at charges

/-- What is done with the value at last asks for nothing more. -/
theorem last (first : Charges m a unit asks) (f : α → β) : Charges (m >>= fun x => Pure.pure (f x)) (f a) unit asks :=
  (first.bind (pure (f a) unit)).congr (or_iff_left id)

theorem bind_of_asks (first : Charges m a unit True) (rest : Returns (next a) b unit) :
    Charges (m >>= next) b unit True := by
  obtain ⟨later, rest⟩ := rest
  exact (first.bind rest).congr (iff_of_true (.inl trivial) trivial)

end Charges

namespace Returns

variable {m m' : StateM Nat α} {a a' : α} {b : β}

theorem pure (a : α) (unit : Nat) : Returns (Pure.pure a) a unit := ⟨False, .pure a unit⟩

theorem bind (first : Returns m a unit) (rest : Returns (next a) b unit) : Returns (m >>= next) b unit := by
  obtain ⟨asks, first⟩ := first
  obtain ⟨later, rest⟩ := rest
  exact ⟨asks ∨ later, first.bind rest⟩

theorem ite {c : Prop} [Decidable c] (yes : Returns m a unit) (no : Returns m' a' unit) :
    Returns (if c then m else m') (if c then a else a') unit := by
  split
  · exact yes
  · exact no

end Returns

variable {S L : Type}

/-- The steps of a system together with the counter. -/
def holding (next : S → L → StateM Nat (Option S)) (s : S × Nat) (l : L) : Option (S × Nat) :=
  match next s.1 l s.2 with
  | (some s', held) => some (s', held)
  | (none, _) => none

section

variable {next : S → L → StateM Nat (Option S)} {plain : S → L → Option S} {unit : L → Nat} {asks : S → L → Prop}

/-- Every step does what the plain system does, and asks in the given cases. -/
def Follows (next : S → L → StateM Nat (Option S)) (plain : S → L → Option S) (unit : L → Nat)
    (asks : S → L → Prop) : Prop :=
  ∀ s l, ∃ p, Charges (next s l) (plain s l) (unit l) p ∧ ∀ s', plain s l = some s' → (p ↔ asks s l)

/-- A step of the system with the counter, in terms of the plain one. -/
theorem Follows.step (follows : Follows next plain unit asks) {s s' : S} {l : L} {held held' : Nat}
    (moved : holding next (s, held) l = some (s', held')) :
    plain s l = some s' ∧ ∃ times, held' = held + times * unit l ∧ (times = 0 ↔ ¬asks s l) := by
  obtain ⟨p, ⟨times, never, ran⟩, same⟩ := follows s l
  simp only [holding, ran held] at moved
  cases went : plain s l with
  | none => simp [went] at moved
  | some s'' =>
    simp only [went] at moved
    obtain ⟨rfl, rfl⟩ := moved
    exact ⟨rfl, times, rfl, by rw [never, same _ went]⟩

/-- **No reference is left exactly if no step asked for one that was there.** -/
theorem held_eq_zero_iff (follows : Follows next plain unit asks) (ls : List L) {s : S} {held : Nat} {after : S × Nat}
    (ran : replay (holding next) ls (s, held) = some after) : after.2 = 0 ↔
      held = 0 ∧ Run (fun s l s' => plain s l = some s' ∧ (unit l ≠ 0 → ¬asks s l)) s ls after.1 := by
  induction ls generalizing s held with
  | nil =>
    obtain rfl := Option.some.inj ran
    exact (and_iff_left (Run.nil s)).symm
  | cons l ls ih =>
    obtain ⟨⟨s', held'⟩, first, rest⟩ := Option.bind_eq_some_iff.1 ran
    obtain ⟨went, times, rfl, never⟩ := follows.step first
    have quiet : held + times * unit l = 0 ↔ held = 0 ∧ (unit l ≠ 0 → ¬asks s l) := by
      rw [Nat.add_eq_zero_iff, Nat.mul_eq_zero, never, or_iff_not_imp_right]
    rw [ih rest, quiet, and_assoc]
    refine and_congr_right fun _ => ⟨fun ⟨here, later⟩ => .cons ⟨went, here⟩ later, fun run => ?_⟩
    cases run with
    | cons step later =>
      obtain ⟨same, here⟩ := step
      obtain rfl := Option.some.inj (went.symm.trans same)
      exact ⟨here, later⟩

end

end RouterApps.Theory
