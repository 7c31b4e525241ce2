/-
# SmartQos.Events -- the reports on one host alternate

What the reads report for a slot should be N, D, N, D and so on.  The field `command` holds one
pending report, and the garbage collector writes it without looking: an unread report of a new host
is replaced by a deletion when the host expires (`unread_new_is_lost`).  If that does not happen, and
no packet comes when `jiffies` is 0 (a slot with `updated` 0 counts as unused), reports alternate, and
a host that is heard of is reported (`reports_alternate`).
-/
import RouterApps.SmartQos.Monitor
import RouterApps.Theory.Run

namespace RouterApps.SmartQos

open Inet Theory List Function

variable {lan : Lan} {hz : Nat}

/-! ## Runs -/

/-- The slots, the events reported for each, and whether it received a packet since its last
reported D with no collection since. -/
structure Watched where
  slots : QosList
  log : Fin maxCount → List Kind
  heard : Fin maxCount → Bool

def Watched.start : Watched := ⟨fun _ => Slot.zero, fun _ => [], fun _ => false⟩

inductive Event
  | packet (frame : Frame) (jiffies : UInt32)
  | gc (jiffies : UInt32)
  | read

def Watched.next (lan : Lan) (hz : Nat) (w : Watched) : Event → Watched
  | .packet frame jiffies =>
    { w with
      slots := smartCallback lan frame jiffies w.slots
      heard := if frame.monitored lan then Function.update w.heard (frame.idx lan) true else w.heard }
  | .gc jiffies => { w with slots := smartQosGc hz jiffies w.slots, heard := fun _ => false }
  | .read =>
    { slots := (procReadSmartQos true w.slots).2
      log := fun i => w.log i ++ (w.slots i).report.toList
      heard := fun i => w.heard i && (w.slots i).report ≠ some .deleted }

/-- The event finds no report of a new host that it would overwrite, and no clock at 0. -/
def Event.Timely (lan : Lan) (hz : Nat) (slots : QosList) : Event → Prop
  | .packet frame jiffies => frame.monitored lan = true → jiffies ≠ 0
  | .gc jiffies => ∀ i, (slots i).expired hz jiffies = true → (slots i).command ≠ addIp
  | .read => True

/-- N, D, N, D, and so on. -/
def Alternates (log : List Kind) : Prop :=
  ∀ (n : Nat) (kind : Kind), log[n]? = some kind → kind = if n % 2 = 0 then .new else .deleted

/-! ## One slot -/

/-- Where a slot is, given what was reported for it. -/
inductive Phase (slot : Slot) (log : List Kind) (heard : Bool) : Prop
  | absent (updated : slot.updated = 0) (command : slot.command = 0) (even : log.length % 2 = 0)
      (unheard : heard = false)
  | appeared (updated : slot.updated ≠ 0) (command : slot.command = addIp) (even : log.length % 2 = 0)
  | present (updated : slot.updated ≠ 0) (command : slot.command = 0) (odd : log.length % 2 = 1)
  | silent (updated : slot.updated ≠ 0) (command : slot.command = delIp) (odd : log.length % 2 = 1)
      (unheard : heard = false)

theorem addIp_ne_delIp : addIp ≠ delIp := by decide

variable {slot : Slot} {log : List Kind} {heard : Bool} {jiffies : UInt32}

theorem Phase.touch (phase : Phase slot log heard)
    (saddr : UInt32) (running : jiffies ≠ 0) : Phase (slot.touch saddr jiffies) log true := by
  cases phase with
  | absent updated command even _ =>
    simp only [Slot.touch, updated]
    exact .appeared running rfl even
  | appeared updated command even =>
    simp only [Slot.touch, updated, if_false, command, addIp_ne_delIp]
    exact .appeared running rfl even
  | present updated command odd =>
    simp only [Slot.touch, updated, if_false, command, show 0 ≠ delIp by decide]
    exact .present running rfl odd
  | silent updated command odd _ =>
    simp only [Slot.touch, updated, if_false, command]
    exact .present running rfl odd

theorem Phase.collect (phase : Phase slot log heard) (read : slot.expired hz jiffies = true → slot.command ≠ addIp) :
    Phase (slot.collect hz jiffies) log false := by
  unfold Slot.collect
  split
  · rename_i expired
    have used : slot.updated ≠ 0 := by
      simpa using (Bool.and_eq_true_iff.1 expired).1
    cases phase with
    | absent updated => exact absurd updated used
    | appeared _ command => exact absurd command (read expired)
    | present updated _ odd | silent updated _ odd _ => exact .silent used rfl odd rfl
  · cases phase with
    | absent updated command even _ => exact .absent updated command even rfl
    | appeared updated command even => exact .appeared updated command even
    | present updated command odd => exact .present updated command odd
    | silent updated command odd _ => exact .silent updated command odd rfl

theorem report_of_zero (command : slot.command = 0) : slot.report = none ∧ slot.clear = slot := by
  simp [Slot.report, Slot.clear, command]

theorem report_of_add (command : slot.command = addIp) :
    slot.report = some .new ∧ slot.clear = { slot with command := 0 } := by
  constructor
  · simp [Slot.report, command, addIp]
  · have apart : addIp &&& delIp = 0 := by decide
    have pending : addIp ≠ 0 := by decide
    simp [Slot.clear, command, apart, pending]

theorem report_of_del (command : slot.command = delIp) :
    slot.report = some .deleted ∧ slot.clear = { slot with updated := 0, command := 0 } := by
  constructor
  · simp [Slot.report, command, addIp, delIp]
  · simp [Slot.clear, command, delIp]

theorem clear_command (slot : Slot) : slot.clear.command = 0 := by
  unfold Slot.clear
  split
  · assumption
  · rfl

theorem Phase.clear (phase : Phase slot log heard) :
    Phase slot.clear (log ++ slot.report.toList) (heard && slot.report ≠ some .deleted) := by
  cases phase with
  | absent updated command even unheard =>
    obtain ⟨report, clear⟩ := report_of_zero command
    rw [report, clear]
    exact .absent updated command (by simpa using even) (by simp [unheard])
  | appeared updated command even =>
    obtain ⟨report, clear⟩ := report_of_add command
    rw [report, clear]
    exact .present updated rfl (by simp; omega)
  | present updated command odd =>
    obtain ⟨report, clear⟩ := report_of_zero command
    rw [report, clear]
    exact .present updated command (by simpa using odd)
  | silent updated command odd unheard =>
    obtain ⟨report, clear⟩ := report_of_del command
    rw [report, clear]
    exact .absent rfl rfl (by simp; omega) (by simp)

theorem Alternates.snoc {kind : Kind} (alternates : Alternates log)
    (due : kind = if log.length % 2 = 0 then .new else .deleted) : Alternates (log ++ [kind]) := by
  intro n found at_
  rcases Nat.lt_trichotomy n log.length with earlier | here | behind
  · rw [getElem?_append_left earlier] at at_
    exact alternates n found at_
  · subst here
    simp only [getElem?_concat_length, Option.some.injEq] at at_
    rw [← at_, due]
  · rw [getElem?_eq_none (by simp; omega)] at at_
    cases at_

theorem Phase.alternates_clear (phase : Phase slot log heard)
    (alternates : Alternates log) : Alternates (log ++ slot.report.toList) := by
  cases phase with
  | absent _ command => simpa [(report_of_zero command).1] using alternates
  | appeared _ command even =>
    rw [(report_of_add command).1]
    exact alternates.snoc (by simp [even])
  | present _ command => simpa [(report_of_zero command).1] using alternates
  | silent _ command odd =>
    rw [(report_of_del command).1]
    exact alternates.snoc (by simp [odd])

theorem Phase.last_new (phase : Phase slot log true)
    (alternates : Alternates log) : (log ++ slot.report.toList).getLast? = some .new := by
  cases phase with
  | absent _ _ _ unheard => cases unheard
  | appeared _ command => simp [(report_of_add command).1]
  | present _ command odd =>
    rw [(report_of_zero command).1, Option.toList_none, append_nil, getLast?_eq_getElem?]
    cases last : log[log.length - 1]? with
    | none =>
      rw [List.getElem?_eq_none_iff] at last
      omega
    | some kind => rw [alternates _ _ last, if_pos (by omega)]
  | silent _ _ _ unheard => cases unheard

/-! ## Every run -/

/-- Every slot is in a phase that fits its reports. -/
def InPhase (w : Watched) : Prop :=
  ∀ i, Phase (w.slots i) (w.log i) (w.heard i) ∧ Alternates (w.log i)

theorem inPhase_start : InPhase Watched.start :=
  fun _ => ⟨.absent rfl rfl rfl rfl, fun _ _ found => by cases found⟩

theorem InPhase.next {w : Watched} (inPhase : InPhase w) {event : Event}
    (timely : event.Timely lan hz w.slots) : InPhase (w.next lan hz event) := by
  intro i
  obtain ⟨phase, alternates⟩ := inPhase i
  cases event with
  | packet frame jiffies =>
    refine ⟨?_, alternates⟩
    by_cases monitored : frame.monitored lan = true
    · by_cases here : i = frame.idx lan
      · subst here
        simp only [Watched.next, smartCallback, monitored, if_true, update_self]
        exact phase.touch frame.saddr (timely monitored)
      · simp only [Watched.next, smartCallback, monitored, if_true, update_of_ne here]
        exact phase
    · simp only [Watched.next, smartCallback, monitored]
      exact phase
  | gc jiffies => exact ⟨phase.collect (timely i), alternates⟩
  | read => exact ⟨phase.clear, phase.alternates_clear alternates⟩

/-- **Reports alternate** in every run in which no collection finds an expired slot with an unread
report of a new host and no packet comes while `jiffies` is 0; and a slot that is heard of is
reported N. -/
theorem reports_alternate (lan : Lan) (hz : Nat) (events : List Event) (w : Watched)
    (run : Run (fun w event w' => w.next lan hz event = w' ∧ event.Timely lan hz w.slots)
      Watched.start events w) (i : Fin maxCount) : Alternates (w.log i) ∧
      (w.heard i = true → ((w.next lan hz .read).log i).getLast? = some .new) := by
  have inPhase : InPhase w := by
    refine run.invariant ?_ inPhase_start
    rintro w event _ inPhase ⟨rfl, timely⟩
    exact inPhase.next timely
  obtain ⟨phase, alternates⟩ := inPhase i
  refine ⟨alternates, fun heard => ?_⟩
  rw [heard] at phase
  exact phase.last_new alternates

def sampleLan : Lan := ⟨[⟨0x0100a8c0, 0x00ffffff⟩], false⟩

/-- A packet from 192.168.0.7 -/
def sampleFrame : Frame := ⟨true, true, 0x0700a8c0⟩

def sampleIdx : Fin maxCount := ⟨7, by decide⟩

/-- A host appears, its report is read, and six minutes later it is collected. -/
theorem sample_alternates :
    let run := [Event.packet sampleFrame 1, .read, .gc 36001, .read]
    let w := run.foldl (Watched.next sampleLan 100) Watched.start
    w.log sampleIdx = [.new, .deleted] ∧ Alternates (w.log sampleIdx) := by
  intro run w
  refine ⟨by decide, (reports_alternate sampleLan 100 run w ?_ sampleIdx).1⟩
  refine .cons ⟨rfl, fun _ => by decide⟩ (.cons ⟨rfl, trivial⟩ (.cons ⟨rfl, ?_⟩ (.cons ⟨rfl, trivial⟩ (.nil _))))
  intro i _
  show (Slot.clear _).command ≠ addIp
  rw [clear_command]
  decide

/-- If nobody reads in between, the host is reported as deleted without having been reported. -/
theorem unread_new_is_lost :
    let run := [Event.packet sampleFrame 1, .gc 36001, .read]
    let w := run.foldl (Watched.next sampleLan 100) Watched.start
    w.log sampleIdx = [.deleted] ∧ ¬Alternates (w.log sampleIdx) := by
  intro run w
  have log : w.log sampleIdx = [.deleted] := by decide
  refine ⟨log, fun alternates => ?_⟩
  exact absurd (alternates 0 .deleted rfl) (by decide)

end RouterApps.SmartQos
