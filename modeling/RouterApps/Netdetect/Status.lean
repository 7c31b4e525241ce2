/-
# Netdetect.Status -- what new_detect reports

The first field of `new_detect` should be 1 exactly when some slot had an event since the
file was last read or the tables cleared, and the second exactly when some slot had its
first event.

The first field is right.  The second is assigned at every event, so a first event is
forgotten when an event of a known slot follows, in the same tick or a later one
(`new_event_forgotten`).  `recentEvents` lists the events since the last read in the order
of the loops; the report is right exactly if the last of them is a first one whenever any
is (`status_reliable_iff`).
-/
import RouterApps.Netdetect.Proc

namespace RouterApps.Netdetect

open CLib Inet Theory Theory.Table List Option

variable {lan : Lan} {d d' : Detector}

/-! ## Events -/

/-- At a tick the event count of some slot of either table goes up. -/
def HasEvent (d : Detector) : Prop :=
  ∃ (i : Nat) (slot slot' : Slot), d.slots[i]? = some slot ∧ (netDetectChecker d).slots[i]? = some slot' ∧
    slot'.ecount = slot.ecount + 1

/-- At a tick the event count of some slot of either table goes from 0 to 1. -/
def HasNewEvent (d : Detector) : Prop :=
  ∃ (i : Nat) (slot slot' : Slot), d.slots[i]? = some slot ∧ (netDetectChecker d).slots[i]? = some slot' ∧
    slot.ecount = 0 ∧ slot'.ecount = 1

/-- The inputs after which nothing is left to report. -/
def Input.resets : Input → Prop
  | .event .clearAll => True
  | .readStatus _ _ => True
  | _ => False

/-- Since the last read or clear of the run, some tick was taken in a state in which `P` held. -/
def TickSince (lan : Lan) (P : Detector → Prop) (inputs : List Input) (start : Detector) : Prop :=
  Since (Detector.input lan) Input.resets (fun d input => input = .event .tick ∧ P d) inputs start

/-! ## The events of a tick -/

/-- The event of a slot at a tick, and whether it is its first one. -/
def Slot.event (limit : UInt32) (slot : Slot) : Option Bool :=
  if slot.ipaddr ≠ 0 ∧ slot.pcount ≥ limit then some (slot.ecount = 0) else none

/-- The events of a tick, in the order of the two loops. -/
def tickEvents (d : Detector) : List Bool :=
  d.history.filterMap (Slot.event d.limitBurst) ++ d.ipHistory.filterMap (Slot.event (d.limitBurst * 2))

def noteEvent (_ : EventFlags) (isNew : Bool) : EventFlags := (true, isNew)

variable (limit : UInt32) (slot : Slot) (events : List Bool)

theorem Slot.check_flags (flags : EventFlags) :
    (slot.check limit flags).2 = (slot.event limit).toList.foldl noteEvent flags := by
  unfold Slot.check Slot.event
  split
  · rename_i free
    simp [free]
  · rename_i used
    split
    · rename_i reached
      simp [used, reached, noteEvent]
    · rename_i below
      split <;> simp [below]

theorem checkSlots_flags (slots : List Slot) (flags : EventFlags) :
    (checkSlots limit slots flags).2 = (slots.filterMap (Slot.event limit)).foldl noteEvent flags := by
  induction slots generalizing flags with
  | nil => rfl
  | cons slot rest ih =>
    simp only [checkSlots, ih, Slot.check_flags, filterMap_cons]
    cases slot.event limit <;> rfl

theorem netDetectChecker_flags (d : Detector) :
    ((netDetectChecker d).eventDetectFlag, (netDetectChecker d).newEventDetectFlag) =
      (tickEvents d).foldl noteEvent (d.eventDetectFlag, d.newEventDetectFlag) := by
  rw [tickEvents, foldl_append, ← checkSlots_flags, ← checkSlots_flags]
  rfl

/-! ## Events and event counts -/

theorem Slot.aged_ecount :
    (slot.aged limit).ecount = if (slot.event limit).isSome then slot.ecount + 1 else slot.ecount := by
  unfold Slot.aged Slot.check Slot.event
  split
  · rename_i free
    simp [free]
  · rename_i used
    split
    · rename_i reached
      simp [used, reached]
    · rename_i below
      -- a slot that is freed had no event
      split
      · simp [below]
      · rename_i none
        simp only [not_not] at none
        simp [below, Slot.zero, none]

theorem Slot.ecount_up_iff : (slot.aged limit).ecount = slot.ecount + 1 ↔ ∃ isNew, slot.event limit = some isNew := by
  rw [Slot.aged_ecount, ← isSome_iff_exists]
  split
  · rename_i event
    simp [event]
  · rename_i quiet
    simp [quiet]

theorem Slot.ecount_first_iff : (slot.ecount = 0 ∧ (slot.aged limit).ecount = 1) ↔ slot.event limit = some true := by
  constructor
  · rintro ⟨zero, one⟩
    have up : (slot.aged limit).ecount = slot.ecount + 1 := by rw [zero, one]; rfl
    obtain ⟨isNew, event⟩ := (slot.ecount_up_iff limit).1 up
    have : isNew = decide (slot.ecount = 0) := by
      unfold Slot.event at event
      split at event
      · exact (some.inj event).symm
      · cases event
    rw [event, this, zero]
    rfl
  · intro event
    have up := (slot.ecount_up_iff limit).2 ⟨true, event⟩
    have zero : slot.ecount = 0 := by
      unfold Slot.event at event
      split at event
      · simpa using event
      · cases event
    exact ⟨zero, by rw [up, zero]; rfl⟩

theorem netDetectChecker_slots (d : Detector) : (netDetectChecker d).slots =
      d.history.map (Slot.aged d.limitBurst) ++ d.ipHistory.map (Slot.aged (d.limitBurst * 2)) :=
  congrArg₂ (· ++ ·) (checkSlots_fst _ _ _) (checkSlots_fst _ _ _)

theorem exists_pair_iff {α β : Type} (l : List α) (l' : List β) (P : α → β → Prop) :
    (∃ (i : Nat) (a : α) (b : β), l[i]? = some a ∧ l'[i]? = some b ∧ P a b) ↔ ∃ pair ∈ l.zip l', P pair.1 pair.2 := by
  constructor
  · rintro ⟨i, a, b, here, there, holds⟩
    exact ⟨(a, b), mem_of_getElem? (getElem?_zip_eq_some.2 ⟨here, there⟩), holds⟩
  · rintro ⟨pair, member, holds⟩
    obtain ⟨i, paired⟩ := mem_iff_getElem?.1 member
    obtain ⟨here, there⟩ := getElem?_zip_eq_some.1 paired
    exact ⟨i, pair.1, pair.2, here, there, holds⟩

theorem exists_slot_iff (P : Slot → Slot → Prop) :
    (∃ (i : Nat) (slot slot' : Slot), d.slots[i]? = some slot ∧ (netDetectChecker d).slots[i]? = some slot' ∧
      P slot slot') ↔
    (∃ slot ∈ d.history, P slot (slot.aged d.limitBurst)) ∨
      ∃ slot ∈ d.ipHistory, P slot (slot.aged (d.limitBurst * 2)) := by
  have zipped : d.slots.zip (netDetectChecker d).slots =
      d.history.map (fun slot => (slot, slot.aged d.limitBurst)) ++
        d.ipHistory.map (fun slot => (slot, slot.aged (d.limitBurst * 2))) := by
    rw [netDetectChecker_slots, Detector.slots, zip_append (length_map _).symm,
      map_prod_left_eq_zip, map_prod_left_eq_zip]
  rw [exists_pair_iff, zipped]
  simp only [mem_append, List.mem_map, or_and_right, exists_or, exists_exists_and_eq_and]

theorem hasEvent_iff : HasEvent d ↔ ∃ isNew, isNew ∈ tickEvents d := by
  rw [HasEvent, exists_slot_iff fun slot slot' => slot'.ecount = slot.ecount + 1]
  simp only [Slot.ecount_up_iff, tickEvents, mem_append, mem_filterMap, exists_or]
  refine or_congr ?_ ?_ <;>
    exact ⟨fun ⟨slot, member, isNew, event⟩ => ⟨isNew, slot, member, event⟩,
      fun ⟨isNew, slot, member, event⟩ => ⟨slot, member, isNew, event⟩⟩

theorem hasNewEvent_iff : HasNewEvent d ↔ true ∈ tickEvents d := by
  rw [HasNewEvent, exists_slot_iff fun slot slot' => slot.ecount = 0 ∧ slot'.ecount = 1]
  simp only [Slot.ecount_first_iff, tickEvents, mem_append, mem_filterMap]

/-! ## The events since the last read -/

def Input.note (d : Detector) (events : List Bool) : Input → List Bool
  | .event .tick => events ++ tickEvents d
  | .event .clearAll => []
  | .readStatus _ _ => []
  | .event (.packet _) => events
  | .readHistory _ _ => events

/-- The events of a run since the last read or clear, in order; `events` are those before it. -/
def recentEvents (lan : Lan) : List Input → Detector → List Bool → List Bool
  | [], _, events => events
  | input :: rest, d, events =>
    match d.input lan input with
    | none => events
    | some d' => recentEvents lan rest d' (input.note d events)

variable {inputs : List Input} {start : Detector} {burst virus : Bool}

theorem recentEvents_snoc {input : Input}
    (ran : replay (Detector.input lan) inputs start = some d) (moved : d.input lan input = some d') :
    recentEvents lan (inputs ++ [input]) start events = input.note d (recentEvents lan inputs start events) := by
  induction inputs generalizing start events with
  | nil =>
    obtain rfl := some.inj ran
    simp [recentEvents, moved]
  | cons first rest ih =>
    obtain ⟨middle, step, ran⟩ := bind_eq_some_iff.1 ran
    simp only [cons_append, recentEvents, step]
    exact ih (first.note start events) ran

/-- Some event since the last read or clear was of a kind exactly if some tick had one of that kind. -/
theorem tickSince_iff {P : Detector → Prop} {Q : Bool → Prop} (tells : ∀ d, P d ↔ ∃ isNew ∈ tickEvents d, Q isNew)
    (ran : replay (Detector.input lan) inputs start = some d) :
    TickSince lan P inputs start ↔ ∃ isNew ∈ recentEvents lan inputs start [], Q isNew := by
  refine replay_invariant
    (I := fun inputs _ => TickSince lan P inputs start ↔ ∃ isNew ∈ recentEvents lan inputs start [], Q isNew)
    ?_ ?_ inputs [] d (append_nil inputs).symm ran
  · simp [TickSince, not_since_nil, recentEvents]
  · intro before input _ d d' _ here ih moved
    rw [TickSince, since_snoc here, ← TickSince, ih, recentEvents_snoc [] here moved]
    match input with
    | .event .tick => simp [Input.note, Input.resets, tells, or_and_right, exists_or, or_comm]
    | .event .clearAll | .readStatus _ _ | .event (.packet _) | .readHistory _ _ => simp [Input.note, Input.resets]

/-! ## The flags along a run -/

theorem flags_of_recentEvents (quiet : start.eventDetectFlag = false) (quietNew : start.newEventDetectFlag = false)
    (ran : replay (Detector.input lan) inputs start = some d) :
    (d.eventDetectFlag, d.newEventDetectFlag) = (recentEvents lan inputs start []).foldl noteEvent (false, false) := by
  refine replay_invariant
    (I := fun inputs d => (d.eventDetectFlag, d.newEventDetectFlag) =
      (recentEvents lan inputs start []).foldl noteEvent (false, false)) ?_ ?_ inputs [] d (append_nil inputs).symm ran
  · rw [quiet, quietNew]
    rfl
  · intro before input _ d d' _ here ih moved
    rw [recentEvents_snoc [] here moved]
    match input with
    | .event .tick =>
      obtain rfl := some.inj moved
      rw [netDetectChecker_flags, ih, Input.note, foldl_append]
    | .event .clearAll | .readStatus _ _ =>
      obtain rfl := some.inj moved
      rfl
    | .event (.packet p) =>
      obtain ⟨⟨rc, _⟩, entered, rfl⟩ := map_eq_some_iff.1 moved
      have kept := target_flags entered
      rw [kept.eventDetect, kept.newEventDetect, ih, Input.note]
    | .readHistory _ _ =>
      obtain rfl := some.inj moved
      exact ih

theorem foldl_noteEvent :
    events.foldl noteEvent (false, false) = (!events.isEmpty, decide (events.getLast? = some true)) := by
  induction events using List.reverseRecOn with
  | nil => rfl
  | append_singleton events isNew _ => simp [noteEvent]

section

variable (ran : replay (Detector.input lan) inputs (Detector.init burst virus) = some d)

include ran

/-- The first flag is right in every state of every run. -/
theorem eventDetectFlag_iff : d.eventDetectFlag = true ↔ TickSince lan HasEvent inputs (Detector.init burst virus) := by
  have flags := flags_of_recentEvents rfl rfl ran
  rw [foldl_noteEvent] at flags
  rw [(Prod.mk.inj flags).1, tickSince_iff (Q := fun _ => True) (fun d => by simp [hasEvent_iff]) ran]
  cases recentEvents lan inputs (Detector.init burst virus) [] <;> simp

/-- The second says whether the last event was a first one. -/
theorem newEventDetectFlag_iff : d.newEventDetectFlag = true ↔
      (recentEvents lan inputs (Detector.init burst virus) []).getLast? = some true := by
  have flags := flags_of_recentEvents rfl rfl ran
  rw [foldl_noteEvent] at flags
  rw [(Prod.mk.inj flags).2, decide_eq_true_iff]

theorem newEventSince_iff : TickSince lan HasNewEvent inputs (Detector.init burst virus) ↔
      true ∈ recentEvents lan inputs (Detector.init burst virus) [] := by
  rw [tickSince_iff (Q := (· = true)) (fun d => by simp [hasNewEvent_iff]) ran]
  simp

end

/-! ## The report -/

/-- The first field is 1 exactly when some slot had an event since the last read or clear, and the
second exactly when some slot had its first event. -/
def ReportsReliably (lan : Lan) (inputs : List Input) (start d : Detector) (length : Nat) : Prop :=
  ∃ event new, (procReadNewDetect d 0 length).1.bytes = statusText event new ∧
    (event = true ↔ TickSince lan HasEvent inputs start) ∧ (new = true ↔ TickSince lan HasNewEvent inputs start)

/-- **The report of new_detect** is right exactly if the last event since the last read or clear was
the first one of its slot, or none was.  Only the second field can be wrong (`eventDetectFlag_iff`).
-/
theorem status_reliable_iff (lan : Lan) (burst virus : Bool) (inputs : List Input) (d : Detector)
    (ran : replay (Detector.input lan) inputs (Detector.init burst virus) = some d) (length : Nat) (room : 3 ≤ length) :
    ReportsReliably lan inputs (Detector.init burst virus) d length ↔
      (true ∈ recentEvents lan inputs (Detector.init burst virus) [] →
        (recentEvents lan inputs (Detector.init burst virus) []).getLast? = some true) := by
  have shown : (procReadNewDetect d 0 length).1.bytes = statusText d.eventDetectFlag d.newEventDetectFlag :=
    procReturn_bytes_of_room (by rwa [statusText_length])
  constructor
  · rintro ⟨event, new, text, -, newRight⟩ isNew
    obtain ⟨-, rfl⟩ := statusText_inj.1 (shown.symm.trans text)
    exact (newEventDetectFlag_iff ran).1 (newRight.2 ((newEventSince_iff ran).2 isNew))
  · intro last
    refine ⟨_, _, shown, eventDetectFlag_iff ran, ?_⟩
    rw [newEventDetectFlag_iff ran, newEventSince_iff ran]
    exact ⟨mem_of_getLast?, last⟩

/-- One packet is enough for an event. -/
def singlePacket : Packet := ⟨0x0100000a, ipprotoTcp, 80, 0, 1, 0⟩

/-- A slot with two events: the file shows "1 0" although the first of them was not reported. -/
theorem new_event_forgotten : ∃ d, replay (Detector.input ⟨[], false⟩) [.event (.packet singlePacket), .event .tick,
        .event (.packet singlePacket), .event .tick] (Detector.init false false) = some d ∧
      (procReadNewDetect d 0 4096).1.bytes = statusText true false ∧
      TickSince ⟨[], false⟩ HasNewEvent [.event (.packet singlePacket), .event .tick,
        .event (.packet singlePacket), .event .tick] (Detector.init false false) := by
  have shown : (replay (Detector.input ⟨[], false⟩) [.event (.packet singlePacket), .event .tick,
      .event (.packet singlePacket), .event .tick] (Detector.init false false)).map
      (fun d => (procReadNewDetect d 0 4096).1.bytes) = some (statusText true false) := by decide +kernel
  obtain ⟨d, ran, text⟩ := map_eq_some_iff.1 shown
  refine ⟨d, ran, text, (newEventSince_iff ran).2 ?_⟩
  decide +kernel

/-- One event, and the file shows "1 1". -/
theorem first_event_reported : ∃ d, replay (Detector.input ⟨[], false⟩) [.event (.packet singlePacket), .event .tick]
        (Detector.init false false) = some d ∧
      ReportsReliably ⟨[], false⟩ [.event (.packet singlePacket), .event .tick] (Detector.init false false) d 4096 := by
  have defined : (replay (Detector.input ⟨[], false⟩) [.event (.packet singlePacket), .event .tick]
      (Detector.init false false)).isSome = true := by decide +kernel
  obtain ⟨d, ran⟩ := isSome_iff_exists.1 defined
  exact ⟨d, ran, (status_reliable_iff ⟨[], false⟩ false false _ d ran 4096 (by decide)).2 fun _ => by decide +kernel⟩

end RouterApps.Netdetect
