/-
# GenConfig.Locking -- processes that change one configuration file

Each call takes the lock of the file before it reads it and gives it back on every way
out, after the file is written if it is.  So the calls are an instance of
`Theory.Critical`, and no update is lost (`calls_serializable`).
-/
import RouterApps.Theory.Serial
import RouterApps.GenConfig.Iconfig

namespace RouterApps.GenConfig

open CLib Theory Critical

/-- The calls that change a configuration file. -/
inductive Call
  | iconfigSetValueDirect (tag : CString) (value : Option CString)
  | iconfigSetIndexValueDirect (tag : CString) (idx : Int) (value : Option CString)
  | genconfigSetValueDirect (tag : CString) (value : Option CString)
  | iconfigMakeDefault (tag : CString)
  | genconfigRemoveItem (tag : CString)
  | genconfigRemoveIndexItem (idx : Int) (tag : CString)
  | iconfigRemoveTagPrefix (start : CString)
deriving DecidableEq

def Call.locked : Call → Section
  | .iconfigSetValueDirect tag value => GenConfig.iconfigSetValueDirect tag value
  | .iconfigSetIndexValueDirect tag idx value => GenConfig.iconfigSetIndexValueDirect tag idx value
  | .genconfigSetValueDirect tag value => fun file =>
    (GenConfig.genconfigSetValueDirect file tag value).map fun written => (some written, 0)
  | .iconfigMakeDefault tag => GenConfig.iconfigMakeDefault tag
  | .genconfigRemoveItem tag => GenConfig.genconfigRemoveItem tag
  | .genconfigRemoveIndexItem idx tag => GenConfig.genconfigRemoveIndexItem idx tag
  | .iconfigRemoveTagPrefix start => GenConfig.iconfigRemoveTagPrefix start

/-- The file that is written can be opened afterwards. -/
def Call.body (call : Call) (file : File) : Option (Option File × Int) :=
  (call.locked file).map fun (written, ret) => (written.map some, ret)

/-- **No lost update.**  A run that ends leaves the file, and returns the values, of some order of
the calls.  Every run can be brought to its end, unless a call writes past a tag array; then some
order of the calls does so too. -/
theorem calls_serializable {ι : Type} [DecidableEq ι] [Fintype ι] (calls : ι → List Call) (file : File)
    (schedule : List ι) : (∀ s, Critical.run Call.body schedule (Critical.start calls file) = some s →
      (Critical.Finished s → ∃ log, Serial (Critical.atomic Call.body) file log s.file ∧
        ∀ p, (own p log).map Prod.fst = calls p ∧ (own p log).map Prod.snd = (s.procs p).returned) ∧
      ∃ rest, ∀ s', Critical.run Call.body rest s = some s' → Critical.Finished s') ∧
    (Critical.run Call.body schedule (Critical.start calls file) = none →
      ∃ (log : List (ι × Call × Int)) (left : File) (p : ι) (call : Call),
        Serial (Critical.atomic Call.body) file log left ∧ Critical.atomic Call.body call left = none ∧
        (own p log).map Prod.fst ++ [call] <+: calls p ∧ ∀ q, (own q log).map Prod.fst <+: calls q) := by
  constructor
  · intro s ran
    refine ⟨fun finished => Critical.serializable ran finished, ?_⟩
    obtain ⟨log, explained⟩ := (Critical.explained_start calls file).run ran
    exact Critical.exists_completion explained
  · intro ran
    exact Critical.undefined_serial (Critical.explained_start calls file) ran

namespace Sample

/-- One process sets `a` and then removes it, another sets `b`. -/
def twoWriters : Bool → List Call
  | false => [.iconfigSetValueDirect ⟨[97], by decide⟩ (some ⟨[49], by decide⟩), .genconfigRemoveItem ⟨[97], by decide⟩]
  | true => [.genconfigSetValueDirect ⟨[98], by decide⟩ (some ⟨[50], by decide⟩)]

/-- The second process tries to take the lock while the first one has it. -/
def contended : List Bool :=
  [false, true, false, true, false, false, true, false, true, true, true, false, false, false, false]

end Sample

open Sample

theorem contended_writers_serializable :
    ∃ s, Critical.run Call.body contended (Critical.start twoWriters none) = some s ∧
      s.file = some [98, 61, 50, 10] ∧
      ∃ log, Serial (Critical.atomic Call.body) none log s.file ∧
        ∀ p, (own p log).map Prod.fst = twoWriters p ∧ (own p log).map Prod.snd = (s.procs p).returned := by
  refine ⟨_, rfl, rfl, ?_⟩
  exact ((calls_serializable twoWriters none contended).1 _ rfl).1
    (fun p => by cases p <;> exact ⟨rfl, rfl⟩)

end RouterApps.GenConfig
