/-
# SmartQos.Monitor -- the monitor behind /proc/smart_qos (smart_qos_mon.c)

The monitor keeps one slot for each host number of the LAN.  Three parties write it
under one lock: the packet hook marks a host that appears, the garbage collector
marks a host that has been silent for five minutes, and a read of the proc file
reports the marks and clears them.

`unsigned long` has 32 bits on the target.  Times are readings of `jiffies`.
-/
import RouterApps.CLib.Text
import RouterApps.Inet.Interface

namespace RouterApps.SmartQos

open CLib Inet

def maxCount : Nat := 258

def addIp : UInt32 := 1

def delIp : UInt32 := 2

/-- `struct _qos_list_t`. -/
structure Slot where
  ip : UInt32
  updated : UInt32
  command : UInt32
deriving DecidableEq

def Slot.zero : Slot := ⟨0, 0, 0⟩

abbrev QosList := Fin maxCount → Slot

structure Frame where
  ethPIp : Bool
  localIf : Bool
  saddr : UInt32
deriving DecidableEq

/-! ## The packet hook -/

/-- The frames that the hook looks at. -/
def Frame.monitored (lan : Lan) (frame : Frame) : Bool :=
  frame.ethPIp && frame.localIf && frame.saddr ≠ 0 && checkInternalSubnet lan frame.saddr

def Frame.idx (lan : Lan) (frame : Frame) : Fin maxCount :=
  ⟨getIpidxByIpaddr lan frame.saddr, getIpidxByIpaddr_lt lan frame.saddr⟩

/-- What the hook does to the slot. -/
def Slot.touch (saddr jiffies : UInt32) (slot : Slot) : Slot :=
  let slot := if slot.updated = 0 then { slot with ip := saddr, command := addIp } else slot
  -- expired and heard of again almost concurrently
  let slot := if slot.command = delIp then { slot with command := 0 } else slot
  { slot with updated := jiffies }

def smartCallback (lan : Lan) (frame : Frame) (jiffies : UInt32) (q : QosList) : QosList :=
  if frame.monitored lan then
    Function.update q (frame.idx lan) ((q (frame.idx lan)).touch frame.saddr jiffies)
  else q

/-! ## The garbage collector -/

/-- `GC_TIMEOUT`, ten minutes. -/
def gcTimeout (hz : Nat) : Nat := 10 * 60 * hz

/-- The test of `smart_qos_gc`; the difference of the times is read as a `long`. -/
def Slot.expired (hz : Nat) (jiffies : UInt32) (slot : Slot) : Bool :=
  slot.updated ≠ 0 && (jiffies - slot.updated).toBitVec.toInt > (gcTimeout hz / 2 : Nat)

def Slot.collect (hz : Nat) (jiffies : UInt32) (slot : Slot) : Slot :=
  if slot.expired hz jiffies then { slot with command := delIp } else slot

def smartQosGc (hz : Nat) (jiffies : UInt32) (q : QosList) : QosList := fun i => (q i).collect hz jiffies

/-! ## Reads -/

/-- The letter of a report: `N`, `D` or `U`. -/
inductive Kind
  | new
  | deleted
  | unknown
deriving DecidableEq

def Kind.letter : Kind → UInt8
  | .new => 78
  | .deleted => 68
  | .unknown => 85

def Slot.report (slot : Slot) : Option Kind :=
  if slot.command = 0 then none
  else if slot.command = addIp then some .new
  else if slot.command = delIp then some .deleted
  else some .unknown

def Slot.clear (slot : Slot) : Slot :=
  if slot.command = 0 then slot
  else { slot with updated := if slot.command &&& delIp ≠ 0 then 0 else slot.updated, command := 0 }

/-- The line of a slot, `"%c %u.%u.%u.%u\n"`. -/
def Slot.line (slot : Slot) : List UInt8 :=
  match slot.report with
  | none => []
  | some kind =>
    let quad := (leBytes slot.ip).map fun byte => digits 10 byte.toNat
    kind.letter :: ascii [' '] ++ (List.intercalate (ascii ['.']) quad) ++ ascii ['\n']

/-- `proc_read_smart_qos` with offset 0 and enough length: the text, and the slots it leaves. -/
def procReadSmartQos (on : Bool) (q : QosList) : List UInt8 × QosList :=
  (ascii ['S', 'm', 'a', 'r', 't', ' ', 'Q', 'o', 'S', ' ', ':', ' '] ++
      (if on then ascii ['O', 'n'] else ascii ['O', 'f', 'f']) ++ ascii ['\n', '\n'] ++
      (List.finRange maxCount).flatMap fun i => (q i).line,
    fun i => (q i).clear)

end RouterApps.SmartQos
