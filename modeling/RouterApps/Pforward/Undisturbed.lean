/-
# Pforward.Undisturbed -- runs in which nobody comes between

A call is without the lock in some places: `create_pforward` between the check and the
change, `remove_pforward` between its three parts, the list calls between opening the
file and taking the lock.  A step is `Undisturbed` if it does not change the file while
another process is in such a place, does not look at the file while another process has
left it half changed, and does not truncate it without the lock while another process
holds it.

In a run of such steps every call takes effect at one step, and the log of these explains
every value returned and the file at the end (`run_explained`).  The invariant is what
each process knows about the file at each place: while a change is under way, the one
process that makes it knows the file before, and the others have not looked.
-/
import RouterApps.Theory.Run
import RouterApps.Pforward.RoundTrip
import RouterApps.Pforward.Steps

namespace RouterApps.Pforward

open CLib GenConfig Theory List Option

/-! ## The condition -/

namespace Phase

def holding : Phase → Bool
  | .locked _ _ | .opened _ _ _ | .loaded _ _ _ | .truncated _ _ _ _ | .done _ _ => true
  | .listLocked _ | .setLocked _ _ => true
  | _ => false

/-- In a call, without the lock. -/
def exposed : Phase → Bool
  | .waiting _ _ | .listOpened _ | .setOpened _ _ => true
  | _ => false

/-- `remove_pforward` has still to see whether the file is empty, `set_pforward_list` has still to
write it. -/
def halfway : Phase → Bool
  | .waiting .last _ | .setOpened _ _ => true
  | _ => false

theorem idle_of_not {phase : Phase} (free : phase.holding = false) (inside : phase.exposed = false) :
    phase = .idle := by
  cases phase with
  | idle => rfl
  | waiting | listOpened | setOpened => cases inside
  | locked | opened | loaded | truncated | done | listLocked | setLocked => cases free

end Phase

/-- The next step of the process changes the file. -/
def Proc.changes (headNull : Bool) (proc : Proc) : Bool :=
  match proc.phase, proc.todo with
  | .idle, .setList _ :: _ => true
  | .loaded stage call file, _ =>
    match outcome headNull stage call file with
    | some (.keep, _) => false
    | _ => true
  | .truncated _ _ _ _, _ | .setLocked _ _, _ => true
  | _, _ => false

/-- The next step of the process opens, reads or changes the file. -/
def Proc.touches (headNull : Bool) (proc : Proc) : Bool :=
  match proc.phase, proc.todo with
  | .idle, .getList :: _ => true
  | .locked _ _, _ | .opened _ _ _, _ | .listLocked _, _ => true
  | _, _ => proc.changes headNull

/-- The next step of the process truncates the file without the lock. -/
def Proc.truncatesUnlocked (proc : Proc) : Bool :=
  match proc.phase, proc.todo with
  | .idle, .setList _ :: _ => true
  | _, _ => false

section

variable {ι : Type} [DecidableEq ι]

/-- The step of `p` that comes next does not come between the steps of another call. -/
structure Undisturbed (headNull : Bool) (s : System ι) (p : ι) : Prop where
  change : (s.procs p).changes headNull = true → ∀ q, q ≠ p → (s.procs q).phase.exposed = false
  touch : (s.procs p).touches headNull = true → ∀ q, q ≠ p → (s.procs q).phase.halfway = false
  truncate : (s.procs p).truncatesUnlocked = true → s.holder = none

instance [Fintype ι] (headNull : Bool) (s : System ι) (p : ι) : Decidable (Undisturbed headNull s p) :=
  decidable_of_iff
    (((s.procs p).changes headNull = true → ∀ q, q ≠ p → (s.procs q).phase.exposed = false) ∧
      ((s.procs p).touches headNull = true → ∀ q, q ≠ p → (s.procs q).phase.halfway = false) ∧
      ((s.procs p).truncatesUnlocked = true → s.holder = none))
    ⟨fun ⟨change, touch, truncate⟩ => ⟨change, touch, truncate⟩,
      fun ⟨change, touch, truncate⟩ => ⟨change, touch, truncate⟩⟩

def UndisturbedStep (headNull : Bool) (s : System ι) (p : ι) (s' : System ι) : Prop :=
  step headNull p s = some s' ∧ Undisturbed headNull s p

end

/-! ## The disk -/

namespace Disk

variable (disk : Disk)

@[simp] theorem truncate_path : disk.truncate.2.path = some disk.truncate.1 := by
  unfold truncate
  split <;> simp_all

@[simp] theorem truncate_inode : disk.truncate.2.inodes disk.truncate.1 = [] := by
  unfold truncate
  split <;> simp

variable {fd : Nat}

theorem write_file {disk : Disk} (named : disk.path = some fd) (emptied : disk.inodes fd = [])
    (text : List UInt8) : (disk.write fd text).file = some text := by
  simp [file, write, named, emptied]

@[simp] theorem unlink_file : disk.unlink.file = none := rfl

theorem file_of_path {disk : Disk} (named : disk.path = some fd) : disk.file = some (disk.inodes fd) := by
  rw [file, named, map_some]

end Disk

/-! ## Parts and whole calls -/

variable {headNull : Bool} {next : Next} {call : Call}

section

variable {file : File} {text : List UInt8} {effect : Effect} {ret : Ret}

/-- The check has let the call go on. -/
def Passed (headNull : Bool) (call : Call) (file : File) : Prop :=
  outcome headNull .check call file = some (.keep, .goto .change)

theorem check_keeps (decided : outcome headNull .check call file = some (effect, next)) :
    effect = .keep ∧ (next = .goto .change ∨ ∃ ret, next = .ret ret) := by
  cases call with
  | create | remove =>
    simp only [outcome, map_eq_some_iff] at decided
    obtain ⟨⟨status, found⟩, -, rfl, rfl⟩ := decided
    refine ⟨rfl, ?_⟩
    split
    · exact .inr ⟨_, rfl⟩
    · exact .inl rfl
  | get =>
    simp only [outcome, map_eq_some_iff] at decided
    obtain ⟨⟨status, found⟩, -, rfl, rfl⟩ := decided
    exact ⟨rfl, .inr ⟨_, rfl⟩⟩
  | getList | setList => cases decided

theorem run_of_check (decided : outcome headNull .check call file = some (effect, .ret ret)) :
    call.run headNull file = some (file, ret) := by
  cases call with
  | create chain name protocol eport ipaddr iport =>
    simp only [outcome, map_eq_some_iff, Prod.mk.injEq] at decided
    obtain ⟨⟨status, found⟩, got, -, next⟩ := decided
    split at next
    · rename_i present
      cases next
      simp only [Call.run, createPforward, got, bind_eq_bind, bind_some, if_pos present, map_some]
    · cases next
  | remove name =>
    simp only [outcome, map_eq_some_iff, Prod.mk.injEq] at decided
    obtain ⟨⟨status, found⟩, got, -, next⟩ := decided
    split at next
    · rename_i absent
      cases next
      simp only [Call.run, removePforward, got, bind_eq_bind, bind_some, if_pos absent, map_some]
    · cases next
  | get name =>
    simp only [outcome, map_eq_some_iff, Prod.mk.injEq] at decided
    obtain ⟨⟨status, found⟩, got, -, next⟩ := decided
    cases next
    simp only [Call.run, got, map_some]
  | getList | setList => cases decided

/-- A change writes the file; then `create_pforward` returns, and `remove_pforward` has one
more part. -/
theorem change_cases (passed : Passed headNull call file)
    (decided : outcome headNull .change call file = some (effect, next)) : ∃ text, effect = .write text ∧
      ((next = .ret (.status 1) ∧ call.run headNull file = some (some text, .status 1)) ∨ next = .goto .last) := by
  cases call with
  | create chain name protocol eport ipaddr iport =>
    simp only [Passed, outcome, map_eq_some_iff, Prod.mk.injEq] at passed
    obtain ⟨⟨status, found⟩, got, -, goes⟩ := passed
    have absent : ¬ status ≠ 0 := by
      intro present
      rw [if_pos present] at goes
      cases goes
    simp only [outcome, map_eq_some_iff] at decided
    obtain ⟨⟨written, status'⟩, set, rfl, rfl⟩ := decided
    obtain ⟨items, read, rest⟩ := bind_eq_some_iff.1 set
    obtain ⟨⟨r, items'⟩, put, rest⟩ := bind_eq_some_iff.1 rest
    cases rest
    refine ⟨_, rfl, .inl ⟨rfl, ?_⟩⟩
    simp only [Call.run, createPforward, got, if_neg absent, fileAfter_written set, bind_eq_bind, bind_some, map_some]
  | remove name =>
    simp only [Passed, outcome, map_eq_some_iff, Prod.mk.injEq] at passed
    obtain ⟨⟨status, found⟩, got, -, goes⟩ := passed
    have readable := readable_of_getPforward got
    rw [getPforward_eq readable] at got
    rcases ruleAt_cases got with ⟨rfl, rfl⟩ | ⟨pforward, rfl, rfl⟩
    · cases goes
    · obtain ⟨contents, removed, -, -⟩ := removeItem_entries readable (lookup_of_ruleAt got).1
      simp only [outcome, removed, map_some, some.injEq, Prod.mk.injEq] at decided
      exact ⟨contents, decided.1.symm, .inr decided.2.symm⟩
  | get | getList | setList => cases decided

theorem last_cases (passed : Passed headNull call file)
    (changed : outcome headNull .change call file = some (.write text, .goto .last))
    (decided : outcome headNull .last call (some text) = some (effect, next)) : next = .ret (.status 1) ∧
      ((effect = .unlink ∧ call.run headNull file = some (none, .status 1)) ∨
        (effect = .keep ∧ call.run headNull file = some (some text, .status 1))) := by
  cases call with
  | remove name =>
    simp only [Passed, outcome, map_eq_some_iff, Prod.mk.injEq] at passed changed decided
    obtain ⟨⟨status, found⟩, got, -, goes⟩ := passed
    have present : ¬ status ≤ 0 := by
      intro absent
      rw [if_pos absent] at goes
      cases goes
    obtain ⟨⟨written, status'⟩, removed, wrote, -⟩ := changed
    obtain ⟨emptied, read, rfl, rfl⟩ := decided
    cases written with
    | none => cases wrote
    | some contents =>
      cases wrote
      have whole : Call.run headNull (.remove name) file = some (if emptied then none else some text, .status 1) := by
        simp only [Call.run, removePforward, got, if_neg present, fileAfter_written removed, read,
          bind_eq_bind, bind_some, map_some]
      refine ⟨rfl, ?_⟩
      cases emptied with
      | true => exact .inl ⟨rfl, whole⟩
      | false => exact .inr ⟨rfl, whole⟩
  | create | get | getList | setList => cases decided

end

/-! ## What a process knows about the file

`F` is the file that the calls in the log have left.  Most of the time it is the file on
the disk; from the truncation on, until the change is complete, it is the one before. -/

/-- What is known when a part begins. -/
def Fact (headNull : Bool) (stage : Stage) (call : Call) (F : File) : Prop :=
  match stage with
  | .check => True
  | .change => Passed headNull call F
  | .last => False

/-- `remove_pforward` has taken the item out and has still to look at the rest. -/
def Changed (headNull : Bool) (call : Call) (disk : Disk) (F : File) : Prop :=
  ∃ text, Passed headNull call F ∧ outcome headNull .change call F = some (.write text, .goto .last) ∧
    disk.file = some text

namespace Phase

/-- The call that has not taken effect. -/
def pending : Phase → List Call
  | .waiting _ call | .locked _ call | .opened _ call _ | .loaded _ call _ | .truncated call _ _ _ => [call]
  | .done call (.goto _) => [call]
  | .listOpened _ | .listLocked _ => [.getList]
  | .setOpened list _ | .setLocked list _ => [.setList list]
  | _ => []

/-- The value of a call that has taken effect and not returned. -/
def result : Phase → List Ret
  | .done _ (.ret ret) => [ret]
  | _ => []

/-- What holds in a process while the disk has the file of the log. -/
def Knows (headNull : Bool) (path : Option Nat) (F : File) : Phase → Prop
  | .idle | .done _ (.ret _) => True
  | .waiting stage call | .locked stage call | .done call (.goto stage) => Fact headNull stage call F
  | .opened stage call fd => Fact headNull stage call F ∧ fd = path
  | .loaded stage call file => Fact headNull stage call F ∧ file = F
  | .listOpened fd | .listLocked fd => path = some fd
  | .truncated _ _ _ _ | .setOpened _ _ | .setLocked _ _ => False

/-- What holds in a process that has changed the disk and is not yet in the log. -/
def Dirty (headNull : Bool) (disk : Disk) (F : File) : Phase → Prop
  | .truncated call fd text next =>
    disk.path = some fd ∧ disk.inodes fd = [] ∧ Passed headNull call F ∧
      outcome headNull .change call F = some (.write text, next)
  | .done call (.goto .last) | .waiting .last call | .locked .last call => Changed headNull call disk F
  | .opened .last call fd => Changed headNull call disk F ∧ fd = disk.path
  | .loaded .last call file => Changed headNull call disk F ∧ file = disk.file
  | .setOpened _ fd | .setLocked _ fd => disk.path = some fd ∧ disk.inodes fd = []
  | _ => False

/-- A process that has not looked into the file; it may have opened it. -/
def Unaware (path : Option Nat) : Phase → Prop
  | .idle | .locked .check _ => True
  | .listOpened fd | .listLocked fd => path = some fd
  | _ => False

variable {disk : Disk} {path : Option Nat} {F : File} {phase : Phase}

theorem Unaware.knows (unaware : phase.Unaware path) : phase.Knows headNull path F := by
  unfold Unaware at unaware
  split at unaware
  · trivial
  · trivial
  · exact unaware
  · exact unaware
  · exact unaware.elim

theorem Dirty.path_ne_none (dirty : phase.Dirty headNull disk F) : disk.path ≠ none := by
  have changed : ∀ {call : Call}, Changed headNull call disk F → disk.path ≠ none := by
    rintro call ⟨text, -, -, file⟩ none
    rw [Disk.file, none] at file
    cases file
  intro none
  unfold Dirty at dirty
  split at dirty
  · exact absurd (none.symm.trans dirty.1) (by simp)
  · exact changed dirty none
  · exact changed dirty none
  · exact changed dirty none
  · exact changed dirty.1 none
  · exact changed dirty.1 none
  · exact absurd (none.symm.trans dirty.1) (by simp)
  · exact absurd (none.symm.trans dirty.1) (by simp)
  · exact dirty

theorem Dirty.halfway (dirty : phase.Dirty headNull disk F) (free : phase.holding = false) : phase.halfway = true := by
  unfold Dirty at dirty
  split at dirty <;> first | rfl | cases free | exact dirty.elim

end Phase

section

variable {ι : Type} [DecidableEq ι]

/-- The file of the log is on the disk, or one process has changed the disk and the others
have not looked. -/
def Agrees (headNull : Bool) (s : System ι) (F : File) : Prop :=
  (s.disk.file = F ∧ ∀ p, (s.procs p).phase.Knows headNull s.disk.path F) ∨
    ∃ q, (s.procs q).phase.Dirty headNull s.disk F ∧ ∀ p, p ≠ q → (s.procs p).phase.Unaware s.disk.path

/-- What a process has still to do, and what it has got. -/
def Proc.ahead (proc : Proc) : List Call := proc.phase.pending ++ proc.todo

def Proc.behind (proc : Proc) : List Ret := proc.returned ++ proc.phase.result

variable {proc : Proc} {phase : Phase}

theorem Proc.goTo_ahead (pending : phase.pending = proc.phase.pending) : (proc.goTo phase).ahead = proc.ahead := by
  rw [Proc.ahead, Proc.ahead, ← pending]
  rfl

theorem Proc.goTo_behind (result : phase.result = proc.phase.result) : (proc.goTo phase).behind = proc.behind := by
  rw [Proc.behind, Proc.behind, ← result]
  rfl

theorem Proc.beginCall_ahead {call : Call} {rest : List Call}
    (idle : proc.phase = .idle) (todo : proc.todo = call :: rest) (pending : phase.pending = [call]) :
    (proc.beginCall phase).ahead = proc.ahead := by
  have none : proc.phase.pending = [] := congrArg Phase.pending idle
  simp [Proc.ahead, Proc.beginCall, todo, pending, none]

theorem Proc.beginCall_behind (idle : proc.phase = .idle) (result : phase.result = []) :
    (proc.beginCall phase).behind = proc.behind := by
  have none : proc.phase.result = [] := congrArg Phase.result idle
  simp [Proc.behind, Proc.beginCall, result, none]

/-- The log explains the values, and `F` is the file it leaves. -/
structure Explained (headNull : Bool) (calls : ι → List Call) (file₀ : File) (s : System ι)
    (log : List (ι × Call × Ret)) (F : File) : Prop where
  serial : Serial (Call.run headNull) file₀ log F
  called : ∀ p, (own p log).map Prod.fst ++ (s.procs p).ahead = calls p
  returned : ∀ p, (own p log).map Prod.snd = (s.procs p).behind
  holds : ∀ p, (s.procs p).phase.holding = true ↔ s.holder = some p
  agrees : Agrees headNull s F

variable {calls : ι → List Call}

section

variable {file₀ F : File} {s : System ι} {p : ι}
variable {log : List (ι × Call × Ret)}

/-! ### Agreement -/

variable {disk : Disk} {holder : Option ι} {F' file : File} {stage : Stage} {fd : Nat}

theorem agrees_clean (file : disk.file = F) (knows : proc.phase.Knows headNull disk.path F)
    (others : ∀ q, q ≠ p → (s.procs q).phase.Knows headNull disk.path F) :
    Agrees headNull ⟨disk, holder, s.set p proc⟩ F := by
  refine .inl ⟨file, fun q => ?_⟩
  by_cases same : q = p
  · subst same
    simpa [System.set] using knows
  · simpa [System.set, same] using others q same

theorem agrees_dirty (dirty : proc.phase.Dirty headNull disk F)
    (others : ∀ q, q ≠ p → (s.procs q).phase.Unaware disk.path) : Agrees headNull ⟨disk, holder, s.set p proc⟩ F := by
  refine .inr ⟨p, by simpa [System.set] using dirty, fun q different => ?_⟩
  simpa [System.set, different] using others q different

theorem Agrees.move (agrees : Agrees headNull s F)
    (knows : s.disk.file = F → (s.procs p).phase.Knows headNull s.disk.path F → proc.phase.Knows headNull s.disk.path F)
    (dirty : (s.procs p).phase.Dirty headNull s.disk F → proc.phase.Dirty headNull s.disk F)
    (unaware : ∀ q, q ≠ p → (s.procs q).phase.Dirty headNull s.disk F →
      (s.procs p).phase.Unaware s.disk.path → proc.phase.Unaware s.disk.path) :
    Agrees headNull ⟨s.disk, holder, s.set p proc⟩ F := by
  rcases agrees with ⟨file, all⟩ | ⟨q, dirtyQ, others⟩
  · exact agrees_clean file (knows file (all p)) fun q _ => all q
  · by_cases same : q = p
    · subst same
      exact agrees_dirty (dirty dirtyQ) others
    · refine .inr ⟨q, by simpa [System.set, same] using dirtyQ, fun r different => ?_⟩
      by_cases mine : r = p
      · subst mine
        simpa [System.set] using unaware q same dirtyQ (others r different)
      · simpa [System.set, mine] using others r different

/-! ### The log -/

variable (explained : Explained headNull calls file₀ s log F)

include explained

variable {ret : Ret}

section

variable (holds : (proc.phase.holding = true ↔ holder = some p) ∧ ∀ q, q ≠ p → (holder = some q ↔ s.holder = some q))

include holds

/-- A step of `p`, after which the log may have an entry of `p` more. -/
theorem Explained.update {log' : List (ι × Call × Ret)} (serial : Serial (Call.run headNull) file₀ log' F')
    (others : ∀ q, q ≠ p → own q log' = own q log)
    (called : (own p log').map Prod.fst ++ proc.ahead = calls p)
    (returned : (own p log').map Prod.snd = proc.behind)
    (agrees : Agrees headNull ⟨disk, holder, s.set p proc⟩ F') :
    Explained headNull calls file₀ ⟨disk, holder, s.set p proc⟩ log' F' where
  serial := serial
  called := by
    intro q
    by_cases same : q = p
    · subst same
      simpa [System.set] using called
    · simpa [System.set, same, others q same] using explained.called q
  returned := by
    intro q
    by_cases same : q = p
    · subst same
      simpa [System.set] using returned
    · simpa [System.set, same, others q same] using explained.returned q
  holds := by
    intro q
    by_cases same : q = p
    · subst same
      simpa [System.set] using holds.1
    · simpa [System.set, same, holds.2 q same] using explained.holds q
  agrees := agrees

theorem Explained.quiet (ahead : proc.ahead = (s.procs p).ahead) (behind : proc.behind = (s.procs p).behind)
    (agrees : Agrees headNull ⟨disk, holder, s.set p proc⟩ F) :
    Explained headNull calls file₀ ⟨disk, holder, s.set p proc⟩ log F := by
  apply explained.update holds explained.serial (fun _ _ => rfl) _ _ agrees
  · rw [ahead, explained.called p]
  · rw [behind, explained.returned p]

theorem Explained.effective (here : call.run headNull F = some (F', ret))
    (ahead : (s.procs p).ahead = call :: proc.ahead) (behind : proc.behind = (s.procs p).behind ++ [ret])
    (agrees : Agrees headNull ⟨disk, holder, s.set p proc⟩ F') :
    Explained headNull calls file₀ ⟨disk, holder, s.set p proc⟩ (log ++ [(p, call, ret)]) F' := by
  apply explained.update holds (explained.serial.snoc p here) _ _ _ agrees
  · intro q different
    simp [own_other different.symm]
  · have before := explained.called p
    rw [ahead] at before
    simpa using before
  · simp [behind, explained.returned p]

end

/-! ### The lock -/

theorem Explained.not_holding {q : ι} (mine : s.holder = none ∨ s.holder = some p) (different : q ≠ p) :
    (s.procs q).phase.holding = false := by
  by_contra busy
  have holder := (explained.holds q).1 (Bool.not_eq_false _ ▸ busy)
  rcases mine with free | held
  · rw [free] at holder
    cases holder
  · rw [held] at holder
    exact different (some.inj holder).symm

theorem Explained.others_idle (mine : s.holder = none ∨ s.holder = some p)
    (alone : ∀ q, q ≠ p → (s.procs q).phase.exposed = false) : ∀ q, q ≠ p → (s.procs q).phase = .idle := by
  intro q different
  exact Phase.idle_of_not (explained.not_holding mine different) (alone q different)

/-- While the holder of the lock may look at the file, no other process has changed it. -/
theorem Explained.no_other_dirty (held : s.holder = some p)
    (alone : ∀ q, q ≠ p → (s.procs q).phase.halfway = false) (q : ι) (different : q ≠ p) :
    ¬ (s.procs q).phase.Dirty headNull s.disk F := by
  intro dirty
  have halfway := dirty.halfway (explained.not_holding (.inr held) different)
  rw [alone q different] at halfway
  cases halfway

/-- `flock`: the process waits or goes on. -/
theorem Explained.lock (holding : proc.phase.holding = true) (ahead : proc.ahead = (s.procs p).ahead)
    (behind : proc.behind = (s.procs p).behind)
    (knows : (s.procs p).phase.Knows headNull s.disk.path F → proc.phase.Knows headNull s.disk.path F)
    (dirty : (s.procs p).phase.Dirty headNull s.disk F → proc.phase.Dirty headNull s.disk F)
    (unaware : (s.procs p).phase.Unaware s.disk.path → proc.phase.Unaware s.disk.path) :
    Explained headNull calls file₀ (takeLock s p proc) log F := by
  unfold takeLock
  split
  · rename_i free
    refine explained.quiet ⟨by simp [holding], fun q different => ?_⟩ ahead behind
      (explained.agrees.move (fun _ => knows) dirty fun _ _ _ => unaware)
    simp [free, Ne.symm different]
  · exact explained

/-! ### A process at a place -/

variable {now after : Phase} (place : (s.procs p).phase = now)

include place

theorem Explained.lockIn (holding : after.holding = true) (pending : after.pending = now.pending)
    (result : after.result = now.result) (knows : now.Knows headNull s.disk.path F → after.Knows headNull s.disk.path F)
    (dirty : now.Dirty headNull s.disk F → after.Dirty headNull s.disk F)
    (unaware : now.Unaware s.disk.path → after.Unaware s.disk.path) :
    Explained headNull calls file₀ (takeLock s p ((s.procs p).goTo after)) log F := by
  subst place
  exact explained.lock holding (Proc.goTo_ahead pending) (Proc.goTo_behind result) knows dirty unaware

theorem Explained.held (holding : now.holding = true) : s.holder = some p :=
  (explained.holds p).1 (place ▸ holding)

/-- A step of the holder that leaves the log alone. -/
theorem Explained.inside (before : now.holding = true) (holding : after.holding = true)
    (pending : after.pending = now.pending) (result : after.result = now.result)
    (agrees : Agrees headNull ⟨disk, s.holder, s.set p ((s.procs p).goTo after)⟩ F) :
    Explained headNull calls file₀ ⟨disk, s.holder, s.set p ((s.procs p).goTo after)⟩ log F := by
  have held := explained.held place before
  subst place
  apply explained.quiet ⟨_, fun q _ => Iff.rfl⟩ (Proc.goTo_ahead pending) (Proc.goTo_behind result) agrees
  simp [Proc.goTo, holding, held]

/-- A call takes effect while its process holds the lock. -/
theorem Explained.effect (before : now.holding = true) (here : call.run headNull F = some (F', ret))
    (pending : now.pending = [call]) (result : now.result = [])
    (file : disk.file = F') (others : ∀ q, q ≠ p → (s.procs q).phase.Knows headNull disk.path F') :
    Explained headNull calls file₀ ⟨disk, s.holder, s.set p ((s.procs p).goTo (.done call (.ret ret)))⟩
      (log ++ [(p, call, ret)]) F' := by
  have held := explained.held place before
  subst place
  refine explained.effective ⟨?_, fun q _ => Iff.rfl⟩ here ?_ ?_ (agrees_clean file trivial others)
  · simp [Proc.goTo, Phase.holding, held]
  · rw [Proc.ahead, pending]
    rfl
  · rw [Proc.behind, Proc.behind, result, append_nil]
    rfl

theorem Explained.dirty (writes : ¬ now.Knows headNull s.disk.path F) (aware : ¬ now.Unaware s.disk.path) :
    now.Dirty headNull s.disk F := by
  subst place
  rcases explained.agrees with ⟨-, all⟩ | ⟨q, dirty, others⟩
  · exact absurd (all p) writes
  · by_cases same : q = p
    · subst same
      exact dirty
    · exact absurd (others p (Ne.symm same)) aware

omit place in
/-- What a process that has read the file knows: the file of the log, or, in the last part
of `remove_pforward`, the one it has written. -/
theorem Explained.loaded (phase : (s.procs p).phase = .loaded stage call file) :
    (s.disk.file = F ∧ file = F ∧ Fact headNull stage call F ∧ ∀ q, (s.procs q).phase.Knows headNull s.disk.path F) ∨
      (stage = .last ∧ file = s.disk.file ∧ Changed headNull call s.disk F ∧
        ∀ q, q ≠ p → (s.procs q).phase.Unaware s.disk.path) := by
  rcases explained.agrees with ⟨onDisk, all⟩ | ⟨q, dirty, others⟩
  · have mine := all p
    rw [phase] at mine
    exact .inl ⟨onDisk, mine.2, mine.1, all⟩
  · by_cases same : q = p
    · subst same
      rw [phase] at dirty
      cases stage with
      | last => exact .inr ⟨rfl, dirty.2, dirty.1, others⟩
      | check | change => exact dirty.elim
    · have mine := others p (Ne.symm same)
      rw [phase] at mine
      exact mine.elim

omit place

/-! ### One step -/

variable {s' : System ι} (stepped : step headNull p s = some s')

include stepped

theorem step_lock (exposed : (s.procs p).phase.exposed = true) : ∃ log F, Explained headNull calls file₀ s' log F := by
  rcases phase : (s.procs p).phase with _ | ⟨stage, call⟩ | _ | _ | _ | _ | _ | fd | _ | ⟨list, fd⟩ | _
  case waiting =>
    simp only [step, phase, some.injEq] at stepped
    subst stepped
    refine ⟨log, F, explained.lockIn phase rfl rfl rfl id ?_ False.elim⟩
    cases stage with
    | last => exact id
    | check | change => exact False.elim
  case listOpened =>
    simp only [step, phase, some.injEq] at stepped
    subst stepped
    exact ⟨log, F, explained.lockIn phase rfl rfl rfl id False.elim id⟩
  case setOpened =>
    simp only [step, phase, some.injEq] at stepped
    subst stepped
    exact ⟨log, F, explained.lockIn phase rfl rfl rfl False.elim id False.elim⟩
  all_goals
    rw [phase] at exposed
    cases exposed

theorem step_opened {fd : Option Nat} (phase : (s.procs p).phase = .opened stage call fd) :
    ∃ log F, Explained headNull calls file₀ s' log F := by
  simp only [step, phase, some.injEq] at stepped
  subst stepped
  refine ⟨log, F, explained.inside phase rfl rfl rfl rfl (explained.agrees.move ?_ ?_ ?_)⟩
  · rw [phase]
    rintro file ⟨fact, rfl⟩
    exact ⟨fact, file⟩
  · rw [phase]
    cases stage with
    | last =>
      rintro ⟨changed, rfl⟩
      exact ⟨changed, rfl⟩
    | check | change => exact False.elim
  · rw [phase]
    exact fun _ _ _ => False.elim

theorem step_done (phase : (s.procs p).phase = .done call next) : ∃ log F, Explained headNull calls file₀ s' log F := by
  have held := explained.held phase rfl
  have released : ∀ q, q ≠ p → (none = some q ↔ s.holder = some q) := by
    intro q different
    rw [held]
    simp [Ne.symm different]
  cases next with
  | ret ret =>
    simp only [step, phase, some.injEq] at stepped
    subst stepped
    refine ⟨log, F, explained.quiet ⟨by simp [Proc.giveBack, Phase.holding], released⟩ ?_ ?_
      (explained.agrees.move (fun _ _ => trivial) ?_ ?_)⟩
    · simp [Proc.ahead, Proc.giveBack, phase, Phase.pending]
    · simp [Proc.behind, Proc.giveBack, phase, Phase.result]
    · rw [phase]
      exact False.elim
    · rw [phase]
      exact fun _ _ _ => False.elim
  | goto stage =>
    simp only [step, phase, some.injEq] at stepped
    subst stepped
    refine ⟨log, F, explained.quiet ⟨by simp [Proc.goTo, Phase.holding], released⟩ ?_ ?_
      (explained.agrees.move ?_ ?_ ?_)⟩
    · simp [Proc.ahead, Proc.goTo, phase, Phase.pending]
    · simp [Proc.behind, Proc.goTo, phase, Phase.result]
    · rw [phase]
      exact fun _ => id
    · rw [phase]
      cases stage with
      | last => exact id
      | check | change => exact False.elim
    · rw [phase]
      exact fun _ _ _ => False.elim

variable (undisturbed : Undisturbed headNull s p)

include undisturbed

theorem step_idle (phase : (s.procs p).phase = .idle) : ∃ log F, Explained headNull calls file₀ s' log F := by
  have free : s.holder ≠ some p := fun held => by
    have holding := (explained.holds p).2 held
    rw [phase] at holding
    cases holding
  have lock : ∀ {call : Call} {rest : List Call}, (s.procs p).todo = call :: rest →
      Explained headNull calls file₀ (takeLock s p ((s.procs p).beginCall (.locked .check call))) log F := by
    intro call rest todo
    refine explained.lock rfl (Proc.beginCall_ahead phase todo rfl) (Proc.beginCall_behind phase rfl) (fun _ => trivial)
      ?_ (fun _ => trivial)
    rw [phase]
    exact False.elim
  rcases todo : (s.procs p).todo with _ | ⟨call, rest⟩
  · simp only [step, phase, todo, some.injEq] at stepped
    exact ⟨log, F, stepped ▸ explained⟩
  · cases call with
    | create | remove | get =>
      simp only [step, phase, todo, some.injEq] at stepped
      exact ⟨log, F, stepped ▸ lock todo⟩
    | getList =>
      rcases path : s.disk.path with _ | fd
      · -- The file is missing: the call takes effect here.
        simp only [step, phase, todo, path, some.injEq] at stepped
        subst stepped
        have missing : F = none := by
          rcases explained.agrees with ⟨file, -⟩ | ⟨q, dirty, -⟩
          · rw [← file, Disk.file, path, map_none]
          · exact absurd path dirty.path_ne_none
        have here : Call.run headNull .getList F = some (F, .rules []) := by rw [missing]; rfl
        refine ⟨_, F, explained.effective ⟨?_, fun q _ => Iff.rfl⟩ here ?_ ?_
          (explained.agrees.move (fun _ _ => trivial) ?_ fun _ _ _ _ => trivial)⟩
        · simp [Proc.giveBack, Phase.holding, free]
        · simp [Proc.ahead, Proc.beginCall, Proc.giveBack, phase, todo, Phase.pending]
        · simp [Proc.behind, Proc.beginCall, Proc.giveBack, phase, Phase.result]
        · rw [phase]
          exact False.elim
      · simp only [step, phase, todo, path, some.injEq] at stepped
        subst stepped
        refine ⟨log, F, explained.quiet ⟨?_, fun q _ => Iff.rfl⟩ (Proc.beginCall_ahead phase todo rfl)
          (Proc.beginCall_behind phase rfl) (explained.agrees.move (fun _ _ => path) ?_ fun _ _ _ _ => path)⟩
        · simp [Proc.beginCall, Phase.holding, free]
        · rw [phase]
          exact False.elim
    | setList list =>
      simp only [step, phase, todo, some.injEq] at stepped
      subst stepped
      have alone := undisturbed.change (by simp [Proc.changes, phase, todo])
      have nobody := undisturbed.truncate (by simp [Proc.truncatesUnlocked, phase, todo])
      have idle := explained.others_idle (.inl nobody) alone
      refine ⟨log, F, explained.quiet ⟨?_, fun q _ => Iff.rfl⟩ (Proc.beginCall_ahead phase todo rfl)
        (Proc.beginCall_behind phase rfl) (agrees_dirty ?_ ?_)⟩
      · simp [Proc.beginCall, Phase.holding, free]
      · exact ⟨s.disk.truncate_path, s.disk.truncate_inode⟩
      · intro q different
        rw [idle q different]
        trivial

theorem step_locked (phase : (s.procs p).phase = .locked stage call) :
    ∃ log F, Explained headNull calls file₀ s' log F := by
  have nobody := explained.no_other_dirty (explained.held phase rfl) (undisturbed.touch (by simp [Proc.touches, phase]))
  simp only [step, phase, some.injEq] at stepped
  subst stepped
  refine ⟨log, F, explained.inside phase rfl rfl rfl rfl
    (explained.agrees.move ?_ ?_ fun q different dirty _ => absurd dirty (nobody q different))⟩
  · rw [phase]
    exact fun _ fact => ⟨fact, rfl⟩
  · rw [phase]
    cases stage with
    | last => exact fun changed => ⟨changed, rfl⟩
    | check | change => exact False.elim

theorem step_loaded (phase : (s.procs p).phase = .loaded stage call file) :
    ∃ log F, Explained headNull calls file₀ s' log F := by
  have idle : ∀ {effect : Effect} {next : Next}, outcome headNull stage call file = some (effect, next) →
      effect ≠ .keep → ∀ q, q ≠ p → (s.procs q).phase = .idle := by
    intro effect next decided changes
    refine explained.others_idle (.inr (explained.held phase rfl)) (undisturbed.change ?_)
    cases effect with
    | keep => exact absurd rfl changes
    | write | unlink => simp [Proc.changes, phase, decided]
  simp only [step, phase, map_eq_some_iff] at stepped
  obtain ⟨⟨effect, next⟩, decided, stepped⟩ := stepped
  rcases explained.loaded phase with ⟨onDisk, rfl, fact, all⟩ | ⟨rfl, rfl, changed, unaware⟩
  · cases stage with
    | check =>
      obtain ⟨rfl, rfl | ⟨ret, rfl⟩⟩ := check_keeps decided
      · subst stepped
        exact ⟨log, file, explained.inside phase rfl rfl rfl rfl (agrees_clean onDisk decided fun q _ => all q)⟩
      · subst stepped
        exact ⟨_, file, explained.effect phase rfl (run_of_check decided) rfl rfl onDisk fun q _ => all q⟩
    | change =>
      obtain ⟨text, rfl, -⟩ := change_cases fact decided
      subst stepped
      refine ⟨log, file, explained.inside phase rfl rfl rfl rfl (agrees_dirty ?_ fun q different => ?_)⟩
      · exact ⟨s.disk.truncate_path, s.disk.truncate_inode, fact, decided⟩
      · rw [idle decided (by simp) q different]
        trivial
    | last => exact fact.elim
  · obtain ⟨text, passed, wrote, written⟩ := changed
    rw [written] at decided
    obtain ⟨rfl, ⟨rfl, here⟩ | ⟨rfl, here⟩⟩ := last_cases passed wrote decided
    · subst stepped
      refine ⟨_, none, explained.effect phase rfl here rfl rfl s.disk.unlink_file fun q different => ?_⟩
      rw [idle (written ▸ decided) (by simp) q different]
      trivial
    · subst stepped
      exact ⟨_, some text, explained.effect phase rfl here rfl rfl written fun q different =>
        (unaware q different).knows⟩

theorem step_truncated {text : List UInt8} (phase : (s.procs p).phase = .truncated call fd text next) :
    ∃ log F, Explained headNull calls file₀ s' log F := by
  have idle := explained.others_idle (.inr (explained.held phase rfl))
    (undisturbed.change (by simp [Proc.changes, phase]))
  obtain ⟨path, emptied, passed, decided⟩ := explained.dirty phase id id
  have written := Disk.write_file path emptied text
  simp only [step, phase, some.injEq] at stepped
  subst stepped
  obtain ⟨text', same, next⟩ := change_cases passed decided
  cases same
  rcases next with ⟨rfl, here⟩ | rfl
  · refine ⟨_, some text, explained.effect phase rfl here rfl rfl written fun q different => ?_⟩
    rw [idle q different]
    trivial
  · refine ⟨log, F, explained.inside phase rfl rfl rfl rfl
      (agrees_dirty ⟨text, passed, decided, written⟩ fun q different => ?_)⟩
    rw [idle q different]
    trivial

theorem step_listLocked (phase : (s.procs p).phase = .listLocked fd) :
    ∃ log F, Explained headNull calls file₀ s' log F := by
  have nobody := explained.no_other_dirty (explained.held phase rfl) (undisturbed.touch (by simp [Proc.touches, phase]))
  simp only [step, phase, some.injEq] at stepped
  subst stepped
  rcases explained.agrees with ⟨file, all⟩ | ⟨q, dirty, -⟩
  · have path := all p
    rw [phase] at path
    have here : Call.run headNull .getList F = some (F, .rules (rulesOf (s.disk.inodes fd))) := by
      rw [← file, Disk.file_of_path path]
      rfl
    exact ⟨_, F, explained.effect phase rfl here rfl rfl file fun q _ => all q⟩
  · by_cases same : q = p
    · subst same
      rw [phase] at dirty
      exact dirty.elim
    · exact absurd dirty (nobody q same)

theorem step_setLocked {list : List (PforwardT × UInt32)} (phase : (s.procs p).phase = .setLocked list fd) :
    ∃ log F, Explained headNull calls file₀ s' log F := by
  have idle := explained.others_idle (.inr (explained.held phase rfl))
    (undisturbed.change (by simp [Proc.changes, phase]))
  obtain ⟨path, emptied⟩ := explained.dirty phase id id
  have written := Disk.write_file path emptied (setPforwardList list)
  simp only [step, phase, some.injEq] at stepped
  subst stepped
  refine ⟨_, _, explained.effect phase rfl rfl rfl rfl written fun q different => ?_⟩
  rw [idle q different]
  trivial

/-- **Every undisturbed step is explained.** -/
theorem Explained.step : ∃ log F, Explained headNull calls file₀ s' log F := by
  rcases phase : (s.procs p).phase with _ | _ | _ | _ | _ | _ | _ | _ | _ | _ | _
  case idle => exact step_idle explained stepped undisturbed phase
  case waiting | listOpened | setOpened => exact step_lock explained stepped (by rw [phase]; rfl)
  case locked => exact step_locked explained stepped undisturbed phase
  case opened => exact step_opened explained stepped phase
  case loaded => exact step_loaded explained stepped undisturbed phase
  case truncated => exact step_truncated explained stepped undisturbed phase
  case done => exact step_done explained stepped phase
  case listLocked => exact step_listLocked explained stepped undisturbed phase
  case setLocked => exact step_setLocked explained stepped undisturbed phase

end

/-! ### Runs -/

variable {file₀ : File}

theorem explained_start (calls : ι → List Call) (file₀ : File) :
    Explained headNull calls file₀ (start calls file₀) [] file₀ where
  serial := .nil
  called := fun _ => rfl
  returned := fun _ => rfl
  holds := fun p => by simp [start, Phase.holding]
  agrees := by
    refine .inl ⟨?_, fun p => trivial⟩
    cases file₀ with
    | none | some contents => rfl

theorem run_explained {schedule : List ι} {s : System ι}
    (run : Run (UndisturbedStep headNull) (start calls file₀) schedule s) (finished : Finished s) :
    ∃ log, Serial (Call.run headNull) file₀ log s.disk.file ∧
      ∀ p, (own p log).map Prod.fst = calls p ∧ (own p log).map Prod.snd = (s.procs p).returned := by
  have preserved : ∀ s p s', (∃ log F, Explained headNull calls file₀ s log F) → UndisturbedStep headNull s p s' →
      ∃ log F, Explained headNull calls file₀ s' log F := by
    rintro s p s' ⟨log, F, explained⟩ stepped
    exact explained.step stepped.1 stepped.2
  obtain ⟨log, F, explained⟩ := run.invariant preserved ⟨[], file₀, explained_start calls file₀⟩
  have onDisk : s.disk.file = F := by
    rcases explained.agrees with ⟨file, -⟩ | ⟨q, dirty, -⟩
    · exact file
    · rw [(finished q).1] at dirty
      exact dirty.elim
  refine ⟨log, onDisk ▸ explained.serial, fun p => ?_⟩
  obtain ⟨idle, todo⟩ := finished p
  have called := explained.called p
  have returned := explained.returned p
  simp only [Proc.ahead, Proc.behind, idle, todo, Phase.pending, Phase.result, append_nil] at called returned
  exact ⟨called, returned⟩

end

end RouterApps.Pforward
