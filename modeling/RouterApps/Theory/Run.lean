/-
# Theory.Run -- finite runs of a labelled step relation

`Run step s ls s'` says that the labels `ls`, in order, lead from `s` to `s'`.
What every step preserves, every run preserves (`Run.invariant`).  A run of a function is found by
computing it (`run_of_replay`, `run_of_guarded`, `run_of_allMeet`); facts that relate its labels so
far to the state are proved along it (`replay_invariant`), and two functions are compared step by
step (`replay_rel`).  What happened after the last reset of a run is `Since`, and is followed label
by label (`since_snoc`, from `lastSplit_snoc`).  Where each label adds something, removes it or leaves
it alone, it is there at the end exactly if it was added and not removed later (`foldl_addedLast_iff`).
-/
import Mathlib

namespace RouterApps.Theory

open List Option

variable {S L : Type}

/-- A finite run of `step`, labels in order. -/
inductive Run (step : S → L → S → Prop) : S → List L → S → Prop
  | nil (s : S) : Run step s [] s
  | cons {s s' s'' : S} {l : L} {ls : List L} (first : step s l s') (rest : Run step s' ls s'') :
      Run step s (l :: ls) s''

namespace Run

variable {step : S → L → S → Prop} {ls : List L}

theorem invariant {I : S → Prop} (preserved : ∀ s l s', I s → step s l s' → I s')
    {s s' : S} (run : Run step s ls s') (holds : I s) : I s' := by
  induction run with
  | nil s => exact holds
  | cons first rest ih => exact ih (preserved _ _ _ holds first)

theorem mono {step' : S → L → S → Prop} (weaker : ∀ s l s', step s l s' → step' s l s')
    {s s' : S} (run : Run step s ls s') : Run step' s ls s' := by
  induction run with
  | nil s => exact .nil s
  | cons first rest ih => exact .cons (weaker _ _ _ first) ih

end Run

/-- The run of a function, if it is defined to the end. -/
def replay (next : S → L → Option S) : List L → S → Option S
  | [], s => some s
  | l :: ls, s => (next s l).bind (replay next ls)

variable {P ok : S → L → Prop} (next : S → L → Option S)

theorem replay_append (before after : List L) (s : S) :
    replay next (before ++ after) s = (replay next before s).bind (replay next after) := by
  induction before generalizing s with
  | nil => rfl
  | cons l rest ih =>
    simp only [cons_append, replay, bind_assoc]
    congr 1
    funext s'
    exact ih s'

theorem replay_snoc (before : List L) (l : L) (s : S) :
    replay next (before ++ [l]) s = (replay next before s).bind (next · l) := by
  rw [replay_append]
  simp [replay]

variable {next : S → L → Option S} {s s' start : S} {labels ls : List L} {resets : L → Prop}

/-- A run that is defined to the end passes a state after each of its parts. -/
theorem exists_replay_of_append {before after : List L}
    (ran : replay next (before ++ after) s = some s') : ∃ middle, replay next before s = some middle := by
  rw [replay_append] at ran
  obtain ⟨middle, first, -⟩ := bind_eq_some_iff.1 ran
  exact ⟨middle, first⟩

theorem replay_invariant {I : List L → S → Prop} (init : I [] start)
    (preserved : ∀ before l after s s', labels = before ++ l :: after → replay next before start = some s →
      I before s → next s l = some s' → I (before ++ [l]) s')
    (before after : List L) (s : S) (split : labels = before ++ after)
    (ran : replay next before start = some s) : I before s := by
  induction before using reverseRecOn generalizing after s with
  | nil =>
    obtain rfl := some.inj ran
    exact init
  | append_singleton before l ih =>
    rw [replay_snoc] at ran
    obtain ⟨middle, first, last⟩ := bind_eq_some_iff.1 ran
    have split : labels = before ++ l :: after := by rw [split, append_assoc]; rfl
    exact preserved before l after middle s split first (ih (l :: after) middle split first) last

/-- Some label meets a condition, which may look at those before it, and none after it resets. -/
def LastSplit (meets : List L → L → Prop) (resets : L → Prop) (labels : List L) : Prop :=
  ∃ before l after, labels = before ++ l :: after ∧ meets before l ∧ ∀ later ∈ after, ¬resets later

theorem lastSplit_snoc {meets : List L → L → Prop} (labels : List L) (x : L) :
    LastSplit meets resets (labels ++ [x]) ↔ meets labels x ∨ (¬resets x ∧ LastSplit meets resets labels) := by
  constructor
  · rintro ⟨before, l, after, split, holds, kept⟩
    induction after using reverseRecOn with
    | nil =>
      obtain ⟨rfl, last⟩ := append_inj' split rfl
      obtain rfl := singleton_inj.1 last
      exact .inl holds
    | append_singleton after y _ =>
      rw [← cons_append, ← append_assoc] at split
      obtain ⟨rfl, last⟩ := append_inj' split rfl
      obtain rfl := singleton_inj.1 last
      exact .inr ⟨kept x (by simp), before, l, after, rfl, holds,
        fun later inside => kept later (mem_append_left _ inside)⟩
  · rintro (holds | ⟨keeps, before, l, after, rfl, holds, kept⟩)
    · exact ⟨labels, x, [], rfl, holds, by simp⟩
    · refine ⟨before, l, after ++ [x], by simp, holds, fun later inside => ?_⟩
      rcases mem_append.1 inside with earlier | last
      · exact kept later earlier
      · rwa [mem_singleton.1 last]

/-- After the last label of the run that resets, some label was taken in a state where `P` held of
the two. -/
def Since (next : S → L → Option S) (resets : L → Prop) (P : S → L → Prop) (labels : List L) (start : S) : Prop :=
  ∃ before l after s, labels = before ++ l :: after ∧ replay next before start = some s ∧ P s l ∧
    ∀ later ∈ after, ¬resets later

theorem not_since_nil (resets : L → Prop) (P : S → L → Prop) (start : S) : ¬Since next resets P [] start := by
  rintro ⟨before, l, after, _, split, -⟩
  simp at split

theorem since_iff_lastSplit : Since next resets P labels start ↔
      LastSplit (fun before l => ∃ s, replay next before start = some s ∧ P s l) resets labels := by
  constructor
  · rintro ⟨before, l, after, s, split, ran, holds, kept⟩
    exact ⟨before, l, after, split, ⟨s, ran, holds⟩, kept⟩
  · rintro ⟨before, l, after, split, ⟨s, ran, holds⟩, kept⟩
    exact ⟨before, l, after, s, split, ran, holds, kept⟩

theorem since_snoc (here : replay next labels start = some s) (x : L) :
    Since next resets P (labels ++ [x]) start ↔ P s x ∨ (¬resets x ∧ Since next resets P labels start) := by
  rw [since_iff_lastSplit, lastSplit_snoc, since_iff_lastSplit]
  simp only [here, some.injEq, exists_eq_left']

/-- Two functions that match step by step have matching runs: both are defined to the end
or neither is. -/
theorem replay_rel {T : Type} {next' : T → L → Option T} {R : S → T → Prop}
    (step : ∀ s t l, R s t → Option.Rel R (next s l) (next' t l)) (ls : List L) {t : T}
    (start : R s t) : Option.Rel R (replay next ls s) (replay next' ls t) := by
  induction ls generalizing s t with
  | nil => exact .some start
  | cons l ls ih =>
    simp only [replay]
    have first := step s t l start
    generalize next s l = here at first ⊢
    generalize next' t l = there at first ⊢
    cases first with
    | some matching => exact ih matching
    | none => exact .none

theorem run_of_replay (ran : replay next ls s = some s') : Run (fun s l s' => next s l = some s') s ls s' := by
  induction ls generalizing s with
  | nil =>
    obtain rfl := some.inj ran
    exact .nil s
  | cons l ls ih =>
    obtain ⟨middle, first, rest⟩ := bind_eq_some_iff.1 ran
    exact .cons first (ih rest)

/-- A run of a function that stops where a condition on the steps fails. -/
theorem run_of_guarded [∀ s l, Decidable (ok s l)]
    (ran : replay (fun s l => if ok s l then next s l else none) ls s = some s') :
    Run (fun s l s' => next s l = some s' ∧ ok s l) s ls s' := by
  apply (run_of_replay ran).mono
  intro s l s' moved
  by_cases holds : ok s l
  · exact ⟨by simpa [holds] using moved, holds⟩
  · simp [holds] at moved

/-- Every step of the run of a total function meets the condition. -/
def allMeet (next : S → L → S) (ok : S → L → Prop) [∀ s l, Decidable (ok s l)] : List L → S → Bool
  | [], _ => true
  | l :: ls, s => ok s l && allMeet next ok ls (next s l)

theorem run_of_allMeet {next : S → L → S} [∀ s l, Decidable (ok s l)]
    (meet : allMeet next ok ls s = true) : Run (fun s l s' => next s l = s' ∧ ok s l) s ls (ls.foldl next s) := by
  induction ls generalizing s with
  | nil => exact .nil s
  | cons l ls ih =>
    obtain ⟨first, rest⟩ := (Bool.and_eq_true _ _).mp meet
    exact .cons ⟨rfl, of_decide_eq_true first⟩ (ih rest)

theorem run_foldl (next : S → L → S) (ls : List L) (s : S) :
    Run (fun s l s' => next s l = s') s ls (ls.foldl next s) := by
  induction ls generalizing s with
  | nil => exact .nil s
  | cons l ls ih => exact .cons rfl (ih (next s l))

def AddedLast (adds removes : L → Prop) (labels : List L) : Prop :=
  ∃ before l after, labels = before ++ l :: after ∧ adds l ∧ ∀ later ∈ after, ¬removes later

theorem addedLast_snoc {adds removes : L → Prop} (labels : List L) (x : L) :
    AddedLast adds removes (labels ++ [x]) ↔ adds x ∨ (¬removes x ∧ AddedLast adds removes labels) :=
  lastSplit_snoc labels x

theorem foldl_addedLast_iff {next : S → L → S} {I P : S → Prop} {adds removes : L → Prop} (init : I start)
    (absent : ¬P start) (labels : List L) (keeps : ∀ s, ∀ l ∈ labels, I s → I (next s l))
    (moves : ∀ s, ∀ l ∈ labels, I s → (P (next s l) ↔ adds l ∨ (¬removes l ∧ P s))) :
    I (labels.foldl next start) ∧ (P (labels.foldl next start) ↔ AddedLast adds removes labels) := by
  induction labels using reverseRecOn with
  | nil =>
    refine ⟨init, iff_of_false absent ?_⟩
    rintro ⟨before, l, after, split, -⟩
    simp at split
  | append_singleton labels x ih =>
    obtain ⟨holds, same⟩ := ih (fun s l inside => keeps s l (mem_append_left _ inside))
      fun s l inside => moves s l (mem_append_left _ inside)
    have last : x ∈ labels ++ [x] := by simp
    rw [foldl_append, addedLast_snoc, ← same]
    exact ⟨keeps _ x last holds, moves _ x last holds⟩

end RouterApps.Theory
