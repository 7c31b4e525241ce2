/-
# Pforward.Serializable -- what two processes on one chain can rely on

Run one after the other, the calls create a rule of a name only once until it is taken
away (`createsOnce_of_serial`), if the strings are plain.  So do runs in which nobody
comes between (`serializable_of_undisturbed`).  Without that condition two processes can
both create one rule (`two_creates_not_serializable`).
-/
import RouterApps.Pforward.Undisturbed

namespace RouterApps.Pforward

open CLib GenConfig Theory List Option

/-! ## Creating a rule twice -/

/-- The strings of `create_pforward` are plain. -/
def Call.Plain : Call → Prop
  | .create chain name protocol _ ipaddr _ => Given chain name protocol ipaddr ∧ PlainStrings chain name protocol ipaddr
  | _ => True

def Creates (name : CString) (call : Call) (ret : Ret) : Prop :=
  (∃ chain protocol eport ipaddr iport, call = .create chain name protocol eport ipaddr iport) ∧ ret = .status 1

/-- The call can take a rule of this name away: it removes it, or writes a whole list. -/
def Removes (name : CString) : Call → Prop
  | .remove name' => name' = name
  | .setList _ => True
  | _ => False

/-- There is a rule of this name. -/
def Present (name : CString) (file : File) : Prop := ∃ pforward, getPforward name file = some (1, some pforward)

theorem lookup_eraseP_of_ne {tag other : CString} (ne : other ≠ tag) (entries : List Entry) :
    lookup (entries.eraseP fun e => decide (e.1 = tag)) other = lookup entries other := by
  have same : (entries.eraseP fun e => decide (e.1 = tag)).find? (fun e => decide (e.1 = other)) =
      entries.find? fun e => decide (e.1 = other) := by
    induction entries with
    | nil => rfl
    | cons e rest ih =>
      by_cases here : e.1 = tag
      · have different : e.1 ≠ other := fun isOther => ne (isOther.symm.trans here)
        rw [eraseP_cons_of_pos (by simpa using here), find?_cons_of_neg (by simpa using different)]
      · rw [eraseP_cons_of_neg (by simpa using here), find?_cons, find?_cons, ih]
  rw [GenConfig.lookup, same, GenConfig.lookup]

section

variable {headNull : Bool} {file file' : File} {name : CString} {call : Call} {ret : Ret}

theorem status_of_create {chain protocol ipaddr : CString} {eport iport : Int32} {status : Int}
    (ran : Call.run headNull (.create chain name protocol eport ipaddr iport) file = some (file', .status status)) :
    createPforward chain name protocol eport ipaddr iport file = some (status, file') := by
  obtain ⟨⟨status', file''⟩, created, same⟩ := map_eq_some_iff.1 ran
  cases same
  exact created

theorem present_of_creates (plain : call.Plain) (creates : Creates name call ret)
    (ran : call.run headNull file = some (file', ret)) : ¬ IsComment name ∧ Present name file' := by
  obtain ⟨⟨chain, protocol, eport, ipaddr, iport, rfl⟩, rfl⟩ := creates
  obtain ⟨given, plain⟩ := plain
  obtain ⟨-, -, found⟩ := create_found given plain (status_of_create ran)
  exact ⟨plain.isTag.2, _, found⟩

theorem not_creates_of_present (present : Present name file) (creates : Creates name call ret) :
    call.run headNull file ≠ some (file', ret) := by
  obtain ⟨⟨chain, protocol, eport, ipaddr, iport, rfl⟩, rfl⟩ := creates
  obtain ⟨pforward, found⟩ := present
  intro ran
  have created := status_of_create ran
  simp [createPforward, found] at created

theorem present_of_run (plain : call.Plain) (noComment : ¬ IsComment name) (stays : ¬ Removes name call)
    (present : Present name file) (ran : call.run headNull file = some (file', ret)) : Present name file' := by
  obtain ⟨pforward, found⟩ := present
  have readable := readable_of_getPforward found
  have same : ∀ {file'' : File}, Readable file'' →
      lookup (entriesOf file'') name = lookup (entriesOf file) name → Present name file'' := by
    intro file'' readable'' looked
    rw [getPforward_eq readable] at found
    refine ⟨pforward, ?_⟩
    rw [getPforward_eq readable'', ← found]
    unfold ruleAt
    rw [looked]
  cases call with
  | create chain other protocol eport ipaddr iport =>
    obtain ⟨⟨status, file''⟩, created, result⟩ := map_eq_some_iff.1 ran
    cases result
    obtain ⟨⟨old, rule⟩, got, rest⟩ := bind_eq_some_iff.1 created
    dsimp only at rest
    split at rest
    · cases rest
      exact ⟨pforward, found⟩
    · rename_i absent
      obtain ⟨file'', -, rest⟩ := bind_eq_some_iff.1 rest
      cases rest
      have ne : name ≠ other := by
        rintro rfl
        cases got.symm.trans found
        exact absent (by decide)
      obtain ⟨given, plain⟩ := plain
      obtain ⟨readable', entries, -⟩ := create_found given plain created
      refine same readable' ?_
      rw [entries, lookup_kept noComment, lookup_putFirst_of_ne ne]
  | remove other =>
    have ne : name ≠ other := fun isName => stays isName.symm
    obtain ⟨⟨status, file''⟩, removed, result⟩ := map_eq_some_iff.1 ran
    cases result
    obtain ⟨⟨old, rule⟩, got, rest⟩ := bind_eq_some_iff.1 removed
    dsimp only at rest
    split at rest
    · cases rest
      exact ⟨pforward, found⟩
    · rename_i isThere
      rcases ruleAt_cases (getPforward_eq readable other ▸ got) with ⟨rfl, rfl⟩ | ⟨gone, rfl, rfl⟩
      · exact absurd le_rfl isThere
      · obtain ⟨left, readable', entries, all⟩ := removePforward_found got
        rw [all headNull] at removed
        split at removed
        · cases removed
          refine same readable' ?_
          rw [entries, lookup_kept noComment, withoutFirst, lookup_eraseP_of_ne ne]
        · cases removed
  | get other =>
    obtain ⟨⟨status, rule⟩, -, result⟩ := map_eq_some_iff.1 ran
    cases result
    exact ⟨pforward, found⟩
  | getList =>
    cases ran
    exact ⟨pforward, found⟩
  | setList list => exact absurd trivial stays

end

/-- Between two calls that create a rule of one name, some call takes it away. -/
def CreatesOnce {ι : Type} (log : List (ι × Call × Ret)) : Prop :=
  ∀ name before x between y after, log = before ++ x :: (between ++ y :: after) →
    Creates name x.2.1 x.2.2 → Creates name y.2.1 y.2.2 → ∃ e ∈ between, Removes name e.2.1

variable {headNull : Bool} {ι : Type} {log : List (ι × Call × Ret)}

/-- **One call after the other, a rule is created once.** -/
theorem createsOnce_of_serial {file₀ file : File}
    (serial : Serial (Call.run headNull) file₀ log file) (plain : ∀ e ∈ log, e.2.1.Plain) : CreatesOnce log := by
  rintro name before x between y after rfl createsX createsY
  by_contra kept
  obtain ⟨file₁, -, serial⟩ := serial.split
  obtain ⟨file₂, ranX, serial⟩ := serial.head
  obtain ⟨file₃, middle, serial⟩ := serial.split
  obtain ⟨file₄, ranY, -⟩ := serial.head
  obtain ⟨noComment, present⟩ := present_of_creates (plain x (by simp)) createsX ranX
  have stays : Present name file₃ := by
    refine middle.invariant present fun e inside file file' there ran => ?_
    have notRemoved : ¬ Removes name e.2.1 := fun removes => kept ⟨e, inside, removes⟩
    exact present_of_run (plain e (by simp [inside])) noComment notRemoved there ran
  exact not_creates_of_present stays createsY ranY

/-! ## Serializability -/

theorem list_of_serial {file₀ file : File}
    (serial : Serial (Call.run headNull) file₀ log file) {e : ι × Call × Ret} (inside : e ∈ log)
    {list : List PforwardT} (isList : e.2.2 = .rules list) :
    ∃ before file, before <+: log ∧ Serial (Call.run headNull) file₀ before file ∧ list = getPforwardList file := by
  obtain ⟨before, after, rfl⟩ := append_of_mem inside
  obtain ⟨here, front, rest⟩ := serial.split
  obtain ⟨next, ran, -⟩ := rest.head
  refine ⟨before, here, prefix_append _ _, front, ?_⟩
  obtain ⟨p, call, ret⟩ := e
  obtain rfl : ret = .rules list := isList
  cases call with
  | getList =>
    cases ran
    rfl
  | setList => cases ran
  | create | remove | get =>
    obtain ⟨result, -, different⟩ := map_eq_some_iff.1 ran
    cases different

section

variable {ι : Type} [DecidableEq ι]

/-- Run one after the other in some order, the calls leave the same file, every list returned is the
content of the chain at some point, and no rule is created twice. -/
def Serializable (headNull : Bool) (calls : ι → List Call) (file₀ : File) (s : System ι) : Prop :=
  ∃ log : List (ι × Call × Ret),
    (∀ p, (own p log).map Prod.fst = calls p ∧ (own p log).map Prod.snd = (s.procs p).returned) ∧
    (∃ serialLog : List (ι × Call × Ret), serialLog.map (fun e => (e.1, e.2.1)) = log.map (fun e => (e.1, e.2.1)) ∧
      Serial (Call.run headNull) file₀ serialLog s.disk.file ∧
      ∀ e ∈ log, ∀ list, e.2.2 = .rules list →
        ∃ before file, before <+: serialLog ∧ Serial (Call.run headNull) file₀ before file ∧
          list = getPforwardList file) ∧
    CreatesOnce log

/-- **Runs in which nobody comes between are serializable.** -/
theorem serializable_of_undisturbed (headNull : Bool) (calls : ι → List Call) (file : File)
    (plain : ∀ p, ∀ call ∈ calls p, call.Plain) (schedule : List ι) (s : System ι)
    (run : Run (UndisturbedStep headNull) (start calls file) schedule s) (finished : Finished s) :
    Serializable headNull calls file s := by
  obtain ⟨log, serial, owned⟩ := run_explained run finished
  have plainLog : ∀ e ∈ log, e.2.1.Plain := by
    intro e inside
    refine plain e.1 e.2.1 ?_
    rw [← (owned e.1).1]
    exact List.mem_map_of_mem (mem_own.2 inside)
  exact ⟨log, owned, ⟨log, rfl, serial, fun e inside list isList => list_of_serial serial inside isList⟩,
    createsOnce_of_serial serial plainLog⟩

end

namespace Sample

/-- The rule `web` on a chain. -/
def createWeb : Call := .create lan web tcp 80 host 8080

theorem createWeb_plain : createWeb.Plain :=
  ⟨⟨by decide, by decide, by decide, by decide⟩, ⟨by decide, ⟨by decide, by decide, by decide, by decide⟩,
    ⟨by decide, by decide, by decide, by decide⟩, ⟨by decide, by decide, by decide, by decide⟩,
    ⟨by decide, by decide, by decide, by decide⟩⟩⟩

/-- One process creates the rule, the other looks. -/
def createAndLook : Bool → List Call
  | false => [createWeb]
  | true => [.getList, .get web, .getList]

def lookBetween : List Bool :=
  replicate 5 false ++ replicate 6 true ++ replicate 6 false ++ replicate 4 true

/-- Both processes create the rule. -/
def createTwice : Bool → List Call := fun _ => [createWeb]

/-- Both check before one of them changes the file. -/
def checkBoth : List Bool :=
  replicate 5 false ++ replicate 5 true ++ replicate 6 false ++ replicate 6 true

end Sample

open Sample

theorem look_between_serializable :
    ∃ s, Run (UndisturbedStep false) (start createAndLook none) lookBetween s ∧
      Serializable false createAndLook none s := by
  have ends : (replay (fun s p => if Undisturbed false s p then step false p s else none) lookBetween
      (start createAndLook none)).map
      (fun s => ((s.procs false).phase, (s.procs false).todo, (s.procs true).phase, (s.procs true).todo)) =
      some (.idle, [], .idle, []) := by decide
  obtain ⟨s, ran, places⟩ := map_eq_some_iff.1 ends
  simp only [Prod.mk.injEq] at places
  have run := run_of_guarded ran
  refine ⟨s, run, serializable_of_undisturbed false createAndLook none ?_ lookBetween s run ?_⟩
  · intro p call inside
    cases p with
    | false =>
      rw [mem_singleton.1 inside]
      exact createWeb_plain
    | true =>
      simp only [createAndLook, mem_cons, not_mem_nil, or_false] at inside
      rcases inside with rfl | rfl | rfl <;> trivial
  · intro p
    cases p with
    | false => exact ⟨places.1, places.2.1⟩
    | true => exact ⟨places.2.2.1, places.2.2.2⟩

theorem split_of_mem {α : Type} {x y : α} (ne : x ≠ y) {l : List α} (memX : x ∈ l) (memY : y ∈ l) :
    ∃ before between after, l = before ++ x :: (between ++ y :: after) ∨
      l = before ++ y :: (between ++ x :: after) := by
  obtain ⟨before, after, rfl⟩ := append_of_mem memX
  rcases mem_append.1 memY with front | back
  · obtain ⟨before', between, rfl⟩ := append_of_mem front
    exact ⟨before', between, after, .inr (by simp)⟩
  · rcases mem_cons.1 back with rfl | back
    · exact absurd rfl ne
    · obtain ⟨between, after', rfl⟩ := append_of_mem back
      exact ⟨before, between, after', .inl rfl⟩

/-- Two processes check for the rule `web` before one of them writes it: both calls return 1. -/
theorem two_creates_not_serializable :
    ∃ s, Run (fun s p s' => step false p s = some s') (start createTwice none) checkBoth s ∧
      Finished s ∧ ¬ Serializable false createTwice none s := by
  have ends : (replay (fun s p => step false p s) checkBoth (start createTwice none)).map
      (fun s => (s.procs false, s.procs true)) =
      some (⟨[], .idle, [.status 1]⟩, ⟨[], .idle, [.status 1]⟩) := by decide
  obtain ⟨s, ran, places⟩ := map_eq_some_iff.1 ends
  have both : ∀ p, s.procs p = ⟨[], .idle, [.status 1]⟩ := by
    intro p
    cases p with
    | false => exact congrArg Prod.fst places
    | true => exact congrArg Prod.snd places
  refine ⟨s, run_of_replay ran, fun p => by simp [both p], ?_⟩
  rintro ⟨log, owned, -, once⟩
  have single : ∀ p, own p log = [(createWeb, .status 1)] := by
    intro p
    obtain ⟨called, returned⟩ := owned p
    rw [both p] at returned
    obtain ⟨entry, whole, isCall⟩ := map_eq_singleton_iff.1 called
    rw [whole, map_singleton, List.cons.injEq] at returned
    rw [whole, ← isCall, ← returned.1]
  have created : ∀ p, (p, createWeb, Ret.status 1) ∈ log := by
    intro p
    exact mem_own.1 (by rw [single p]; exact mem_singleton_self _)
  have kept : ∀ e ∈ log, ¬ Removes web e.2.1 := by
    intro e inside removes
    have here := mem_own.2 (inside)
    rw [single e.1, mem_singleton] at here
    rw [here] at removes
    exact removes
  have creates : Creates web createWeb (.status 1) := ⟨⟨_, _, _, _, _, rfl⟩, rfl⟩
  have different : (false, createWeb, Ret.status 1) ≠ (true, createWeb, Ret.status 1) := by
    intro same
    cases congrArg Prod.fst same
  obtain ⟨before, between, after, whole | whole⟩ := split_of_mem different (created false) (created true)
  all_goals
    obtain ⟨e, inside, removes⟩ := once _ _ _ _ _ _ whole creates creates
    exact kept e (by simp [whole, inside]) removes

end RouterApps.Pforward
