/-
# Theory.Serial -- calls of several processes in one order

`Serial` runs calls one after the other on a shared file.  A concurrent system is
serializable if what it leaves in the file, and what every process gets back, is what
`Serial` gives for some order of the calls that keeps each process's own order.

The second half is the pattern that ensures it: a call takes a lock, reads the file,
writes it or finds nothing to write, and gives the lock back.  `Critical.serializable`
holds for any number of processes and any bodies.
-/
import Mathlib

namespace RouterApps.Theory

open List Option Function

section

variable {ι α : Type} [DecidableEq ι]

/-- The part of a log that belongs to one process. -/
def own (p : ι) (log : List (ι × α)) : List α := (log.filter fun entry => entry.1 = p).map Prod.snd

@[simp] theorem own_append (p : ι) (log log' : List (ι × α)) : own p (log ++ log') = own p log ++ own p log' := by
  simp [own]

@[simp] theorem own_self (p : ι) (a : α) : own p [(p, a)] = [a] := by simp [own]

theorem mem_own {p : ι} {a : α} {log : List (ι × α)} : a ∈ own p log ↔ (p, a) ∈ log := by
  simp [own]

theorem own_other {p q : ι} (different : p ≠ q) (a : α) : own q [(p, a)] = [] := by
  simp [own, different]

end

/-- Calls one after the other: who called what, what it returned, and the file after all. -/
inductive Serial {ι Call F R : Type} (spec : Call → F → Option (F × R)) (file₀ : F) :
    List (ι × Call × R) → F → Prop
  | nil : Serial spec file₀ [] file₀
  | snoc {log : List (ι × Call × R)} {file file' : F} {call : Call} {r : R}
      (before : Serial spec file₀ log file) (p : ι) (here : spec call file = some (file', r)) :
      Serial spec file₀ (log ++ [(p, call, r)]) file'

variable {ι Call F R : Type} {log' : List (ι × Call × R)}

namespace Serial

variable {spec : Call → F → Option (F × R)} {file₀ file : F}

theorem eq_of_nil (serial : Serial spec file₀ ([] : List (ι × Call × R)) file) : file = file₀ := by
  generalize none : ([]) = log at serial
  cases serial with
  | nil => rfl
  | snoc before p here => simp at none

variable {log : List (ι × Call × R)} {e : ι × Call × R}

/-- The last call of a log. -/
theorem last (serial : Serial spec file₀ (log ++ [e]) file) :
    ∃ before, Serial spec file₀ log before ∧ spec e.2.1 before = some (file, e.2.2) := by
  generalize whole : log ++ [e] = all at serial
  cases serial with
  | nil => simp at whole
  | snoc before p here =>
    obtain ⟨rfl, same⟩ := append_inj' whole rfl
    cases same
    exact ⟨_, before, here⟩

/-- A log can be taken apart anywhere. -/
theorem split (serial : Serial spec file₀ (log ++ log') file) :
    ∃ between, Serial spec file₀ log between ∧ Serial spec between log' file := by
  induction log' using List.reverseRecOn generalizing file with
  | nil => exact ⟨file, by simpa using serial, .nil⟩
  | append_singleton log' e ih =>
    rw [← append_assoc] at serial
    obtain ⟨before, front, here⟩ := serial.last
    obtain ⟨between, first, second⟩ := ih front
    exact ⟨between, first, second.snoc e.1 here⟩

/-- The first call of a log. -/
theorem head (serial : Serial spec file₀ (e :: log) file) :
    ∃ next, spec e.2.1 file₀ = some (next, e.2.2) ∧ Serial spec next log file := by
  obtain ⟨next, first, rest⟩ := split (singleton_append ▸ serial)
  obtain ⟨before, none, here⟩ := last (nil_append [e] ▸ first)
  rw [none.eq_of_nil] at here
  exact ⟨next, here, rest⟩

theorem invariant {I : F → Prop} (serial : Serial spec file₀ log file) (holds : I file₀)
    (preserved : ∀ e ∈ log, ∀ before after, I before → spec e.2.1 before = some (after, e.2.2) → I after) : I file := by
  induction serial with
  | nil => exact holds
  | snoc before p here ih =>
    have earlier := ih fun e inside => preserved e (mem_append_left _ inside)
    exact preserved (p, _, _) (mem_append_right _ (mem_singleton_self _)) _ _ earlier here

end Serial

namespace Critical

/-- Where a process is: between two calls, or in a call and holding the lock. -/
inductive Phase (Call F R : Type)
  | idle
  | locked (call : Call)
  | loaded (call : Call) (file : F)
  | written (ret : R)

structure Proc (Call F R : Type) where
  todo : List Call
  phase : Phase Call F R
  returned : List R

structure System (ι Call F R : Type) where
  file : F
  holder : Option ι
  procs : ι → Proc Call F R

variable [DecidableEq ι]

/-- `procs p := proc`. -/
def System.set (s : System ι Call F R) (p : ι) (proc : Proc Call F R) : ι → Proc Call F R :=
  update s.procs p proc

/-- One step of process `p`; `none` is undefined behaviour.  A process that waits or is done stays
as it is. -/
def step (body : Call → F → Option (Option F × R)) (p : ι) (s : System ι Call F R) : Option (System ι Call F R) :=
  let proc := s.procs p
  match proc.phase with
  | .idle =>
    match s.holder, proc.todo with
    | none, call :: todo =>
      some { s with holder := some p, procs := s.set p { proc with todo := todo, phase := .locked call } }
    | _, _ => some s
  | .locked call => some { s with procs := s.set p { proc with phase := .loaded call s.file } }
  | .loaded call file =>
    (body call file).map fun result =>
      match result with
      | (some written, ret) =>
        { s with file := written, procs := s.set p { proc with phase := .written ret } }
      | (none, ret) =>
        { s with
          holder := none,
          procs := s.set p { proc with phase := .idle, returned := proc.returned ++ [ret] } }
  | .written ret =>
    some { s with
      holder := none,
      procs := s.set p { proc with phase := .idle, returned := proc.returned ++ [ret] } }

/-- An interleaving: whose step is next, from first to last. -/
def run (body : Call → F → Option (Option F × R)) : List ι → System ι Call F R → Option (System ι Call F R)
  | [], s => some s
  | p :: schedule, s => (step body p s).bind (run body schedule)

/-- Every process is before its first call. -/
def start (calls : ι → List Call) (file : F) : System ι Call F R :=
  ⟨file, none, fun p => ⟨calls p, .idle, []⟩⟩

/-- Every process is done. -/
def Finished (s : System ι Call F R) : Prop := ∀ p, (s.procs p).phase = .idle ∧ (s.procs p).todo = []

def atomic (body : Call → F → Option (Option F × R)) (call : Call) (file : F) : Option (F × R) :=
  (body call file).map fun result => (result.1.getD file, result.2)

/-! ## What every run keeps -/

def Phase.pending : Phase Call F R → List Call
  | .locked call => [call]
  | .loaded call _ => [call]
  | _ => []

/-- The value that a call returns when it unlocks. -/
def Phase.result : Phase Call F R → List R
  | .written ret => [ret]
  | _ => []

/-- The calls that have written, in this order, explain the file and the values.  Only the holder is
in a call, and what it read is still in the file. -/
structure Explained (body : Call → F → Option (Option F × R)) (calls : ι → List Call) (file₀ : F)
    (s : System ι Call F R) (log : List (ι × Call × R)) : Prop where
  serial : Serial (atomic body) file₀ log s.file
  called : ∀ p, (own p log).map Prod.fst ++ ((s.procs p).phase.pending ++ (s.procs p).todo) = calls p
  returned : ∀ p, (own p log).map Prod.snd = (s.procs p).returned ++ (s.procs p).phase.result
  holds : ∀ p, (s.procs p).phase ≠ .idle ↔ s.holder = some p
  fresh : ∀ p call file, (s.procs p).phase = .loaded call file → file = s.file

variable {proc : Proc Call F R} {body : Call → F → Option (Option F × R)} {calls : ι → List Call}

section

variable {file₀ : F}
variable {s s' : System ι Call F R} {p : ι} {log : List (ι × Call × R)}

theorem explained_start (calls : ι → List Call) (file₀ : F) : Explained body calls file₀ (start calls file₀) [] where
  serial := .nil
  called := fun _ => rfl
  returned := fun _ => rfl
  holds := fun p => by simp [start]
  fresh := fun p call file loaded => by simp [start] at loaded

section

variable (explained : Explained body calls file₀ s log)

include explained

theorem Explained.others_idle (mine : s.holder = none ∨ s.holder = some p) {q : ι} (other : q ≠ p) :
    (s.procs q).phase = .idle := by
  by_contra busy
  have holder := (explained.holds q).1 busy
  rcases mine with free | held
  · simp [free] at holder
  · rw [held] at holder
    exact other (some.inj holder).symm

/-- A step of `p` has to be explained for `p` only. -/
theorem Explained.update (mine : s.holder = none ∨ s.holder = some p) {file : F}
    {holder : Option ι}
    (serial : Serial (atomic body) file₀ log' file)
    (others : ∀ q, p ≠ q → own q log' = own q log)
    (called : (own p log').map Prod.fst ++ (proc.phase.pending ++ proc.todo) = calls p)
    (returned : (own p log').map Prod.snd = proc.returned ++ proc.phase.result)
    (holds : ∀ q, holder = some q ↔ q = p ∧ proc.phase ≠ .idle)
    (fresh : ∀ call f, proc.phase = .loaded call f → f = file) :
    Explained body calls file₀ ⟨file, holder, s.set p proc⟩ log' where
  serial := serial
  called := by
    intro q
    by_cases same : q = p
    · subst same
      simpa [System.set] using called
    · simpa [System.set, same, others q (Ne.symm same)] using explained.called q
  returned := by
    intro q
    by_cases same : q = p
    · subst same
      simpa [System.set] using returned
    · simpa [System.set, same, others q (Ne.symm same)] using explained.returned q
  holds := by
    intro q
    rw [holds q]
    by_cases same : q = p
    · subst same
      simp [System.set]
    · simp [System.set, same, explained.others_idle mine same]
  fresh := by
    intro q call f loaded
    by_cases same : q = p
    · subst same
      simp only [System.set, update_self] at loaded
      exact fresh call f loaded
    · simp [System.set, same, explained.others_idle mine same] at loaded

/-- Every defined step is explained. -/
theorem Explained.step (stepped : step body p s = some s') : ∃ log', Explained body calls file₀ s' log' := by
  have called := explained.called p
  have returned := explained.returned p
  rcases phase : (s.procs p).phase with _ | call | ⟨call, file⟩ | ret
  case idle =>
    simp only [Critical.step, phase] at stepped
    rcases free : s.holder with _ | q
    · rcases todo : (s.procs p).todo with _ | ⟨call, todo'⟩
      · simp only [free, todo, some.injEq] at stepped
        exact ⟨log, stepped ▸ explained⟩
      · simp only [free, todo, some.injEq] at stepped
        subst stepped
        refine ⟨log, explained.update (.inl free) explained.serial (fun _ _ => rfl) ?_ ?_ ?_ ?_⟩
        · simpa [phase, Phase.pending, todo] using called
        · simpa [phase, Phase.result] using returned
        · simp [eq_comm]
        · simp
    · simp only [free, some.injEq] at stepped
      exact ⟨log, stepped ▸ explained⟩
  case locked =>
    have held : s.holder = some p := (explained.holds p).1 (by simp [phase])
    simp only [Critical.step, phase, some.injEq] at stepped
    subst stepped
    refine ⟨log, explained.update (.inr held) explained.serial (fun _ _ => rfl) ?_ ?_ ?_ ?_⟩
    · simpa [phase, Phase.pending] using called
    · simpa [phase, Phase.result] using returned
    · simp [held, eq_comm]
    · simp
  case loaded =>
    have held : s.holder = some p := (explained.holds p).1 (by simp [phase])
    have same := explained.fresh p call file phase
    subst same
    simp only [Critical.step, phase, map_eq_some_iff] at stepped
    obtain ⟨⟨written, ret⟩, result, stepped⟩ := stepped
    have here : atomic body call s.file = some (written.getD s.file, ret) := by
      rw [atomic, result, map_some]
    refine ⟨log ++ [(p, call, ret)], ?_⟩
    have others : ∀ q, p ≠ q → own q (log ++ [(p, call, ret)]) = own q log := by
      intro q different
      simp [own_other different]
    cases written with
    | none | some =>
      subst stepped
      refine explained.update (.inr held) (explained.serial.snoc p here) others ?_ ?_ ?_ ?_
      · simpa [phase, Phase.pending] using called
      · simpa [phase, Phase.result] using returned
      · simp [held, eq_comm]
      · simp
  case written =>
    have held : s.holder = some p := (explained.holds p).1 (by simp [phase])
    simp only [Critical.step, phase, some.injEq] at stepped
    subst stepped
    refine ⟨log, explained.update (.inr held) explained.serial (fun _ _ => rfl) ?_ ?_ ?_ ?_⟩
    · simpa [phase, Phase.pending] using called
    · simpa [phase, Phase.result] using returned
    all_goals simp

/-- An undefined step is a call that is undefined on the file the order leaves. -/
theorem Explained.undefined (stepped : Critical.step body p s = none) : ∃ call, atomic body call s.file = none ∧
      (own p log).map Prod.fst ++ [call] <+: calls p ∧ ∀ q, (own q log).map Prod.fst <+: calls q := by
  rcases phase : (s.procs p).phase with _ | call | ⟨call, file⟩ | ret
  case idle =>
    simp only [Critical.step, phase] at stepped
    split at stepped <;> simp at stepped
  case locked => simp [Critical.step, phase] at stepped
  case written => simp [Critical.step, phase] at stepped
  case loaded =>
    have same := explained.fresh p call file phase
    subst same
    simp only [Critical.step, phase, map_eq_none_iff] at stepped
    refine ⟨call, by rw [atomic, stepped, map_none], ⟨(s.procs p).todo, ?_⟩, ?_⟩
    · simpa [phase, Phase.pending] using explained.called p
    · intro q
      exact ⟨_, explained.called q⟩

end

end

/-! ## Runs -/

section

variable {file₀ : F}

variable {s : System ι Call F R} {log : List (ι × Call × R)} {schedule : List ι} {s' : System ι Call F R}

theorem Explained.run (explained : Explained body calls file₀ s log) (ran : run body schedule s = some s') :
    ∃ log', Explained body calls file₀ s' log' := by
  induction schedule generalizing s log with
  | nil =>
    obtain rfl := some.inj ran
    exact ⟨log, explained⟩
  | cons p schedule ih =>
    obtain ⟨next, stepped, rest⟩ := bind_eq_some_iff.1 ran
    obtain ⟨log', explained'⟩ := explained.step stepped
    exact ih explained' rest

/-- **Serializability.**  A run that ends comes to what some order of the calls does. -/
theorem serializable (ran : run body schedule (start calls file₀) = some s) (finished : Finished s) :
    ∃ log, Serial (atomic body) file₀ log s.file ∧
      ∀ p, (own p log).map Prod.fst = calls p ∧ (own p log).map Prod.snd = (s.procs p).returned := by
  obtain ⟨log, explained⟩ := (explained_start calls file₀).run ran
  refine ⟨log, explained.serial, fun p => ?_⟩
  obtain ⟨idle, done⟩ := finished p
  have called := explained.called p
  have returned := explained.returned p
  simp only [idle, done, Phase.pending, Phase.result, append_nil] at called returned
  exact ⟨called, returned⟩

theorem undefined_serial (explained : Explained body calls file₀ s log) (ran : run body schedule s = none) :
    ∃ (log : List (ι × Call × R)) (file : F) (p : ι) (call : Call),
      Serial (atomic body) file₀ log file ∧ atomic body call file = none ∧
      (own p log).map Prod.fst ++ [call] <+: calls p ∧ ∀ q, (own q log).map Prod.fst <+: calls q := by
  induction schedule generalizing s log with
  | nil => exact absurd ran (by simp [run])
  | cons p schedule ih =>
    rcases stepped : step body p s with _ | next
    · obtain ⟨call, here, own⟩ := explained.undefined stepped
      exact ⟨log, s.file, p, call, explained.serial, here, own⟩
    · obtain ⟨log', explained'⟩ := explained.step stepped
      rw [run, stepped] at ran
      exact ih explained' ran

/-! ### Every run can be completed -/

/-- The steps a process has left. -/
def Proc.work (proc : Proc Call F R) : Nat :=
  4 * proc.todo.length +
    match proc.phase with
    | .idle => 0
    | .locked _ => 3
    | .loaded _ _ => 2
    | .written _ => 1

variable [Fintype ι]

def System.work (s : System ι Call F R) : Nat := ∑ p, (s.procs p).work

theorem work_lt {p : ι} (procs : s'.procs = s.set p proc) (less : proc.work < (s.procs p).work) : s'.work < s.work := by
  refine Finset.sum_lt_sum (fun q _ => ?_) ⟨p, Finset.mem_univ p, ?_⟩
  · by_cases same : q = p
    · subst same
      simpa [procs, System.set] using less.le
    · simp [procs, System.set, same]
  · simpa [procs, System.set] using less

/-- No deadlock: the holder of the lock can go on, and without one anybody can. -/
theorem exists_step (explained : Explained body calls file₀ s log) (unfinished : ¬ Finished s) :
    ∃ p, ∀ s', step body p s = some s' → s'.work < s.work := by
  rcases holder : s.holder with _ | p
  · -- Everybody is between calls, and somebody has a call left.
    have idle : ∀ p, (s.procs p).phase = .idle := by
      intro p
      by_contra busy
      simpa [holder] using (explained.holds p).1 busy
    obtain ⟨p, left⟩ : ∃ p, (s.procs p).todo ≠ [] := by
      by_contra none
      exact unfinished fun p => ⟨idle p, by_contra fun left => none ⟨p, left⟩⟩
    refine ⟨p, fun s' stepped => ?_⟩
    obtain ⟨call, todo, calls⟩ := exists_cons_of_ne_nil left
    simp only [step, idle p, holder, calls, some.injEq] at stepped
    subst stepped
    refine work_lt rfl ?_
    simp only [Proc.work, calls, length_cons]
    omega
  · have busy := (explained.holds p).2 holder
    refine ⟨p, fun s' stepped => ?_⟩
    rcases phase : (s.procs p).phase with _ | call | ⟨call, file⟩ | ret
    case idle => exact absurd phase busy
    case locked =>
      simp only [step, phase, some.injEq] at stepped
      subst stepped
      refine work_lt rfl ?_
      simp only [Proc.work, phase]
      omega
    case loaded =>
      simp only [step, phase, map_eq_some_iff] at stepped
      obtain ⟨⟨written, ret⟩, -, stepped⟩ := stepped
      cases written with
      | none | some written =>
        subst stepped
        refine work_lt rfl ?_
        simp only [Proc.work, phase]
        omega
    case written =>
      simp only [step, phase, some.injEq] at stepped
      subst stepped
      refine work_lt rfl ?_
      simp only [Proc.work, phase]
      omega

/-- Every state of a run can go on to the end, or to undefined behaviour. -/
theorem exists_completion (explained : Explained body calls file₀ s log) :
    ∃ schedule, ∀ s', run body schedule s = some s' → Finished s' := by
  induction bound : s.work using Nat.strong_induction_on generalizing s log with
  | _ n ih =>
    by_cases finished : Finished s
    · refine ⟨[], fun s' ran => ?_⟩
      obtain rfl := some.inj ran
      exact finished
    · obtain ⟨p, less⟩ := exists_step explained finished
      rcases stepped : step body p s with _ | next
      · exact ⟨[p], fun s' ran => by simp [run, stepped] at ran⟩
      · obtain ⟨log', explained'⟩ := explained.step stepped
        obtain ⟨schedule, ends⟩ := ih next.work (bound ▸ less next stepped) explained' rfl
        refine ⟨p :: schedule, fun s' ran => ?_⟩
        rw [run, stepped] at ran
        exact ends s' ran

end

end Critical

end RouterApps.Theory
