/-
# Netdetect.Proc -- the files of the detector under /proc/netdetect (xt_NETDETECT_handle.c)

`new_detect` shows the two event flags, and `history` a line for each slot of either table
that ever had an event.  A call prints its whole text, whatever the offset, and clears the
flags it printed.
-/
import RouterApps.CLib.Printf
import RouterApps.CLib.Proc
import RouterApps.Netdetect.History

namespace RouterApps.Netdetect

open CLib Inet Theory List

/-! ## new_detect -/

/-- What `%d` prints of a flag. -/
def flagText (flag : Bool) : List UInt8 := if flag then ascii ['1'] else ascii ['0']

/-- `"%d %d"`. -/
def statusText (event new : Bool) : List UInt8 := flagText event ++ ascii [' '] ++ flagText new

theorem statusText_length (event new : Bool) : (statusText event new).length = 3 := by
  cases event <;> cases new <;> rfl

theorem statusText_inj {event new event' new' : Bool} :
    statusText event new = statusText event' new' ↔ event = event' ∧ new = new' := by
  revert event new event' new'
  decide

def procReadNewDetect (d : Detector) (offset length : Nat) : ProcRead × Detector :=
  (procReturn (statusText d.eventDetectFlag d.newEventDetectFlag) offset length,
    { d with eventDetectFlag := false, newEventDetectFlag := false })

/-! ## history -/

/-- `"%08x %08x %2d %5d %5d %5d %5d\n"`, if the slot had an event.  The counters are `u32` and are
printed as an `int`. -/
def Slot.line (slot : Slot) : List UInt8 :=
  if slot.ecount = 0 then []
  else
    lowerHex slot.etime ++ ascii [' '] ++ lowerHex slot.ipaddr ++ ascii [' '] ++
      padded 2 (digits 10 slot.proto.toNat) ++ ascii [' '] ++ padded 5 (digits 10 slot.port.toNat) ++ ascii [' '] ++
      padded 5 (formatInt slot.pcount.toInt32).bytes ++ ascii [' '] ++
      padded 5 (formatInt slot.ecount.toInt32).bytes ++ ascii [' '] ++
      padded 5 (digits 10 slot.flag.toNat) ++ ascii ['\n']

/-- A slot after its line was printed. -/
def Slot.shown (slot : Slot) : Slot := if slot.ecount = 0 then slot else { slot with flag := 0 }

/-- The text of `proc_read_history`: the two loops. -/
def Detector.historyText (d : Detector) : List UInt8 :=
  d.history.flatMap Slot.line ++ d.ipHistory.flatMap Slot.line

def procReadHistory (d : Detector) (offset length : Nat) : ProcRead × Detector :=
  (procReturn d.historyText offset length,
    { d with
      history := d.history.map Slot.shown
      ipHistory := d.ipHistory.map Slot.shown
      historyLength := by rw [length_map, d.historyLength]
      ipHistoryLength := by rw [length_map, d.ipHistoryLength] })

/-! ## Runs with reads -/

/-- The slots of both tables, in the order in which every loop visits them. -/
def Detector.slots (d : Detector) : List Slot := d.history ++ d.ipHistory

/-- What happens to the detector. -/
inductive Input
  | event (e : Event)
  | readStatus (offset length : Nat)
  | readHistory (offset length : Nat)
deriving DecidableEq

def Detector.input (lan : Lan) (d : Detector) : Input → Option Detector
  | .event e => d.step lan e
  | .readStatus offset length => some (procReadNewDetect d offset length).2
  | .readHistory offset length => some (procReadHistory d offset length).2

end RouterApps.Netdetect
