/-
# Netdetect.History -- the NETDETECT target and its timer (xt_NETDETECT.c, xt_NETDETECT_handle.c)

The target counts packets by source address, protocol and destination port, in a
table of 1000 slots, and by the last byte of a LAN address, in a second table of 255.
A slot is free if its address is 0.  Every second the timer turns a count that
reached the limit into an event, and frees the slots without an event.

The detector is the static variables of the two files.  `none` stands for an
access behind the end of the second table: the last byte of an address can be 255.
-/
import RouterApps.Inet.Interface
import RouterApps.Theory.Run
import RouterApps.Theory.Table

namespace RouterApps.Netdetect

open Inet Theory Theory.Table List Option

/-! ## Data -/

/-- `struct net_detect_history`; `ipaddr` is in network order. -/
structure Slot where
  ipaddr : UInt32
  proto : UInt8
  port : UInt16
  pcount : UInt32
  ecount : UInt32
  etime : UInt32
  flag : UInt8
deriving DecidableEq

/-- What `memset` leaves of a slot. -/
def Slot.zero : Slot := ⟨0, 0, 0, 0, 0, 0, 0⟩

def netDetectUpdated : UInt8 := 1

def maxHistory : Nat := 1000

/-- The size of `NDip_history`. -/
def maxIpHistory : Nat := 255

def nfDrop : UInt32 := 0

def xtContinue : UInt32 := 0xFFFFFFFF

/-- The static variables.  The four flags are 0 or 1. -/
structure Detector where
  history : List Slot
  ipHistory : List Slot
  limitBurst : UInt32
  burstDropFlag : Bool
  virusDropFlag : Bool
  eventDetectFlag : Bool
  newEventDetectFlag : Bool
  historyLength : history.length = maxHistory
  ipHistoryLength : ipHistory.length = maxIpHistory
deriving DecidableEq

/-- After `init`, with the flags that were written to `burst_drop`. -/
def Detector.init (burstDropFlag virusDropFlag : Bool) : Detector where
  history := replicate maxHistory Slot.zero
  ipHistory := replicate maxIpHistory Slot.zero
  limitBurst := 0
  burstDropFlag := burstDropFlag
  virusDropFlag := virusDropFlag
  eventDetectFlag := false
  newEventDetectFlag := false
  historyLength := length_replicate
  ipHistoryLength := length_replicate

/-- What the target reads of a packet, of its rule and of the clock.  `dest` is the destination
port, `type` the first byte of an ICMP header. -/
structure Packet where
  saddr : UInt32
  protocol : UInt8
  dest : UInt16
  type : UInt8
  limit : UInt32
  seconds : UInt32
deriving DecidableEq

def ipprotoIcmp : UInt8 := 1

def ipprotoTcp : UInt8 := 6

def ipprotoUdp : UInt8 := 17

def icmpEcho : UInt8 := 8

/-! ## The target -/

def tcpVirusPorts : List UInt16 :=
  [80, 135, 139, 445, 707, 1080, 2535, 2745, 3127, 4751, 5000, 6667, 6777, 9900, 14247, 17771, 63535]

def udpVirusPorts : List UInt16 := [137, 1434, 6667]

def virusDropOnly (virusDropFlag : Bool) (proto : UInt8) (port : UInt16) : Bool :=
  if !virusDropFlag then false
  else if proto = ipprotoTcp then tcpVirusPorts.contains port
  else if proto = ipprotoUdp then udpVirusPorts.contains port
  else false

def Slot.isFor (srcip : UInt32) (proto : UInt8) (port : UInt16) (slot : Slot) : Bool :=
  slot.ipaddr = srcip && slot.proto = proto && slot.port = port

def Slot.isFree (slot : Slot) : Bool := slot.ipaddr = 0

/-- `search_net_detect_history`: the first slot of the key, or else the last free one (the second
loop has no `break`). -/
def searchNetDetectHistory (history : List Slot) (srcip : UInt32) (proto : UInt8) (port : UInt16) :
    Option (Nat × Slot) :=
  match firstFrom (Slot.isFor srcip proto port) history 0 with
  | some ndh => some ndh
  | none => lastFrom Slot.isFree history 0 none

/-- A slot after a packet: a free one is given to the key, and the packet is counted. -/
def Slot.hit (srcip : UInt32) (proto : UInt8) (port : UInt16) (seconds : UInt32) (slot : Slot) : Slot :=
  let slot := if slot.ipaddr = 0 then { slot with ipaddr := srcip, proto := proto, port := port } else slot
  { slot with pcount := slot.pcount + 1, etime := seconds }

/-- Has the host reached twice the limit?  This reads the second table. -/
def Detector.hostOverLimit (d : Detector) (srcip : UInt32) : Option Bool :=
  d.ipHistory[lastByte srcip]?.map fun host => host.pcount ≥ d.limitBurst * 2

/-- The verdict on a packet that was counted in `ndh`. -/
def Detector.verdict (d : Detector) (srcip : UInt32) (ndh : Slot) : Option UInt32 := do
  let burst ←
    if d.burstDropFlag then
      if ndh.pcount ≥ d.limitBurst then some true else d.hostOverLimit srcip
    else some false
  if burst then some nfDrop
  else if virusDropOnly d.virusDropFlag ndh.proto ndh.port && ndh.pcount ≥ d.limitBurst then some nfDrop
  else
    let multiPort ← if d.virusDropFlag then d.hostOverLimit srcip else some false
    some (if multiPort then nfDrop else xtContinue)

/-- A slot of the second table after a packet that was counted in `ndh`. -/
def Slot.hitHost (srcip limitBurst seconds : UInt32) (ndh host : Slot) : Slot :=
  if ndh.pcount ≥ limitBurst then { host with ipaddr := srcip, pcount := 0 }
  else { host with ipaddr := srcip, etime := seconds, pcount := host.pcount + 1 }

/-- The second table after a packet that was counted in `ndh`. -/
def Detector.countHost (lan : Lan) (d : Detector) (srcip seconds : UInt32) (ndh : Slot) : Option Detector :=
  if checkInternalSubnet lan srcip then
    d.ipHistory[lastByte srcip]?.map fun host =>
      { d with
        ipHistory := d.ipHistory.set (lastByte srcip) (host.hitHost srcip d.limitBurst seconds ndh)
        ipHistoryLength := by rw [length_set, d.ipHistoryLength] }
  else some d

/-- A write through a pointer into the first table. -/
def Detector.writeHistory (d : Detector) (idx : Nat) (ndh : Slot) : Detector :=
  { d with
    history := d.history.set idx ndh
    historyLength := by rw [length_set, d.historyLength] }

/-- `update_net_detect_history`.  A full table is answered with 0. -/
def Detector.updateNetDetectHistory (lan : Lan) (d : Detector) (srcip : UInt32) (proto : UInt8)
    (port : UInt16) (seconds : UInt32) : Option (UInt32 × Detector) :=
  match searchNetDetectHistory d.history srcip proto port with
  | none => some (0, d)
  | some (idx, slot) => do
    let ndh := slot.hit srcip proto port seconds
    let d := d.writeHistory idx ndh
    let rc ← d.verdict srcip ndh
    let d ← d.countHost lan srcip seconds ndh
    some (rc, d)

/-- The packets that are counted: of ICMP only echo requests. -/
def Packet.counted (p : Packet) : Bool := p.protocol ≠ ipprotoIcmp || p.type = icmpEcho

def Packet.destPort (p : Packet) : UInt16 :=
  if p.protocol = ipprotoTcp || p.protocol = ipprotoUdp then p.dest else 0

/-- `ND_limit_burst = ndinfo->limit`. -/
def Detector.setLimit (d : Detector) (limit : UInt32) : Detector := { d with limitBurst := limit }

def target (lan : Lan) (d : Detector) (p : Packet) : Option (UInt32 × Detector) :=
  if p.counted then
    (d.setLimit p.limit).updateNetDetectHistory lan p.saddr p.protocol p.destPort p.seconds
  else some (xtContinue, d)

/-! ## The timer -/

/-- `event_detect_flag` and `new_event_detect_flag`. -/
abbrev EventFlags := Bool × Bool

/-- One round of either loop of `net_detect_checker`, with the limit of that loop. -/
def Slot.check (limit : UInt32) (slot : Slot) (flags : EventFlags) : Slot × EventFlags :=
  if slot.ipaddr = 0 then (slot, flags)
  else if slot.pcount ≥ limit then
    ({ slot with ecount := slot.ecount + 1, pcount := 0, flag := netDetectUpdated }, (true, slot.ecount + 1 = 1))
  else if slot.ecount ≠ 0 then ({ slot with pcount := 0 }, flags)
  else (Slot.zero, flags)

/-- Either loop of `net_detect_checker`. -/
def checkSlots (limit : UInt32) : List Slot → EventFlags → List Slot × EventFlags
  | [], flags => ([], flags)
  | slot :: rest, flags =>
    let (slot, flags) := slot.check limit flags
    let (rest, flags) := checkSlots limit rest flags
    (slot :: rest, flags)

/-- What a round does to the slot. -/
def Slot.aged (limit : UInt32) (slot : Slot) : Slot := (slot.check limit (false, false)).1

variable {rc : UInt32} (limit : UInt32)

theorem Slot.check_fst (slot : Slot) (flags : EventFlags) : (slot.check limit flags).1 = slot.aged limit := by
  unfold Slot.aged Slot.check
  split
  · rfl
  · split
    · rfl
    · split <;> rfl

theorem checkSlots_fst (slots : List Slot) (flags : EventFlags) :
    (checkSlots limit slots flags).1 = slots.map (Slot.aged limit) := by
  induction slots generalizing flags with
  | nil => rfl
  | cons slot rest ih => simp [checkSlots, ih, Slot.check_fst]

def netDetectChecker (d : Detector) : Detector :=
  let (history, flags) := checkSlots d.limitBurst d.history (d.eventDetectFlag, d.newEventDetectFlag)
  { d with
    history := (checkSlots d.limitBurst d.history (d.eventDetectFlag, d.newEventDetectFlag)).1
    ipHistory := (checkSlots (d.limitBurst * 2) d.ipHistory flags).1
    eventDetectFlag := (checkSlots (d.limitBurst * 2) d.ipHistory flags).2.1
    newEventDetectFlag := (checkSlots (d.limitBurst * 2) d.ipHistory flags).2.2
    historyLength := by rw [checkSlots_fst, length_map, d.historyLength]
    ipHistoryLength := by rw [checkSlots_fst, length_map, d.ipHistoryLength] }

def procWriteClearAll (d : Detector) : Detector :=
  { d with
    history := replicate maxHistory Slot.zero
    ipHistory := replicate maxIpHistory Slot.zero
    eventDetectFlag := false
    newEventDetectFlag := false
    historyLength := length_replicate
    ipHistoryLength := length_replicate }

/-! ## Runs -/

inductive Event
  | packet (p : Packet)
  | tick
  | clearAll
deriving DecidableEq

def Detector.step (lan : Lan) (d : Detector) : Event → Option Detector
  | .packet p => (target lan d p).map Prod.snd
  | .tick => some (netDetectChecker d)
  | .clearAll => some (procWriteClearAll d)

/-! ## What a packet does -/

/-- A source address, a protocol and a port. -/
abbrev Key := UInt32 × UInt8 × UInt16

def Slot.key (slot : Slot) : Key := (slot.ipaddr, slot.proto, slot.port)

def Packet.key (p : Packet) : Key := (p.saddr, p.protocol, p.destPort)

variable {slot : Slot} {before after : List Slot} {p : Packet} {history : List Slot}

theorem Packet.isFor_iff : slot.isFor p.saddr p.protocol p.destPort = true ↔ slot.key = p.key := by
  simp [Slot.isFor, Slot.key, Packet.key, and_assoc]

@[simp] theorem Slot.isFree_iff : slot.isFree = true ↔ slot.ipaddr = 0 := by
  simp [Slot.isFree]

/-- The slot a packet is counted in: the first one of its key, or the last free one. -/
structure Packet.Takes (p : Packet) (history before : List Slot) (slot : Slot) (after : List Slot) : Prop where
  split : history = before ++ slot :: after
  chosen : (slot.key = p.key ∧ ∀ other ∈ before, other.key ≠ p.key) ∨
    ((∀ other ∈ history, other.key ≠ p.key) ∧ slot.ipaddr = 0 ∧ ∀ other ∈ after, other.ipaddr ≠ 0)

/-- The table has a slot for the packet. -/
def Packet.HasRoom (p : Packet) (d : Detector) : Prop :=
  ∃ slot ∈ d.history, slot.key = p.key ∨ slot.ipaddr = 0

/-- The packet is not one that is counted behind the end of the second table. -/
def Packet.InTable (lan : Lan) (p : Packet) : Prop :=
  checkInternalSubnet lan p.saddr = true → lastByte p.saddr ≠ 255

instance (p : Packet) (d : Detector) : Decidable (p.HasRoom d) :=
  inferInstanceAs (Decidable (∃ slot ∈ d.history, slot.key = p.key ∨ slot.ipaddr = 0))

instance (lan : Lan) (p : Packet) : Decidable (p.InTable lan) :=
  inferInstanceAs (Decidable (_ → _))

theorem search_of_takes (takes : p.Takes history before slot after) :
    searchNetDetectHistory history p.saddr p.protocol p.destPort = some (before.length, slot) := by
  obtain ⟨rfl, chosen⟩ := takes
  unfold searchNetDetectHistory
  rcases chosen with ⟨own, earlier⟩ | ⟨absent, free, behind⟩
  · rw [firstFrom_of_split (Packet.isFor_iff.2 own)
      fun other member => Bool.eq_false_iff.2 fun match_ => earlier other member (Packet.isFor_iff.1 match_)]
    simp
  · have none_ : firstFrom (Slot.isFor p.saddr p.protocol p.destPort) (before ++ slot :: after) 0 = none :=
      firstFrom_eq_none.2 fun other member =>
        Bool.eq_false_iff.2 fun match_ => absent other member (Packet.isFor_iff.1 match_)
    rw [none_]
    rw [lastFrom_of_split (Slot.isFree_iff.2 free)
      fun other member => Bool.eq_false_iff.2 fun isFree => behind other member (Slot.isFree_iff.1 isFree)]
    simp

theorem takes_or_full (p : Packet) (history : List Slot) : (∃ before slot after, p.Takes history before slot after) ∨
      ∀ slot ∈ history, slot.key ≠ p.key ∧ slot.ipaddr ≠ 0 := by
  rcases first_split (Slot.isFor p.saddr p.protocol p.destPort) history with
    absent | ⟨before, slot, after, split, own, earlier⟩
  · have absent : ∀ slot ∈ history, slot.key ≠ p.key := fun slot member same => by
      simpa [absent slot member] using Packet.isFor_iff.2 same
    rcases last_split Slot.isFree history with occupied | ⟨before, slot, after, split, free, behind⟩
    · refine .inr fun slot member => ⟨absent slot member, fun zero => ?_⟩
      simpa [occupied slot member] using Slot.isFree_iff.2 zero
    · refine .inl ⟨before, slot, after, split, .inr ⟨absent, Slot.isFree_iff.1 free, ?_⟩⟩
      intro other member zero
      simpa [behind other member] using Slot.isFree_iff.2 zero
  · refine .inl ⟨before, slot, after, split, .inl ⟨Packet.isFor_iff.1 own, ?_⟩⟩
    intro other member same
    simpa [earlier other member] using Packet.isFor_iff.2 same

theorem search_of_full (full : ∀ slot ∈ history, slot.key ≠ p.key ∧ slot.ipaddr ≠ 0) :
    searchNetDetectHistory history p.saddr p.protocol p.destPort = none := by
  have absent : firstFrom (Slot.isFor p.saddr p.protocol p.destPort) history 0 = none :=
    firstFrom_eq_none.2 fun slot member =>
      Bool.eq_false_iff.2 fun match_ => (full slot member).1 (Packet.isFor_iff.1 match_)
  unfold searchNetDetectHistory
  rw [absent]
  exact lastFrom_of_none
    (fun slot member => Bool.eq_false_iff.2 fun free => (full slot member).2 (Slot.isFree_iff.1 free)) _ _

variable {lan : Lan} {d d' : Detector}

theorem target_of_full (counted : p.counted = true) (full : ∀ slot ∈ d.history, slot.key ≠ p.key ∧ slot.ipaddr ≠ 0) :
    target lan d p = some (nfDrop, d.setLimit p.limit) := by
  have absent : searchNetDetectHistory (d.setLimit p.limit).history p.saddr p.protocol p.destPort = none :=
    search_of_full full
  simp only [target, counted, Detector.updateNetDetectHistory, absent]
  rfl

def Packet.counting (p : Packet) (slot : Slot) : Slot := slot.hit p.saddr p.protocol p.destPort p.seconds

/-- The detector in which the verdict is made. -/
def Detector.entered (d : Detector) (p : Packet) (idx : Nat) (slot : Slot) : Detector :=
  (d.setLimit p.limit).writeHistory idx (p.counting slot)

theorem entered_history (takes : p.Takes d.history before slot after) :
    (d.entered p before.length slot).history = before ++ p.counting slot :: after := by
  show d.history.set before.length (p.counting slot) = _
  rw [takes.split]
  simp

theorem target_of_takes (counted : p.counted = true) (takes : p.Takes d.history before slot after) : target lan d p =
      ((d.entered p before.length slot).verdict p.saddr (p.counting slot)).bind fun rc =>
        ((d.entered p before.length slot).countHost lan p.saddr p.seconds (p.counting slot)).map (rc, ·) := by
  have found : searchNetDetectHistory (d.setLimit p.limit).history p.saddr p.protocol p.destPort =
      some (before.length, slot) := search_of_takes takes
  simp only [target, counted, Detector.updateNetDetectHistory, found, map_eq_bind]
  rfl

/-- None of the four flags differs. -/
structure Detector.SameFlags (d d' : Detector) : Prop where
  burstDrop : d'.burstDropFlag = d.burstDropFlag
  virusDrop : d'.virusDropFlag = d.virusDropFlag
  eventDetect : d'.eventDetectFlag = d.eventDetectFlag
  newEventDetect : d'.newEventDetectFlag = d.newEventDetectFlag

theorem Detector.SameFlags.trans {a b c : Detector} (first : a.SameFlags b) (second : b.SameFlags c) : a.SameFlags c :=
  ⟨second.burstDrop.trans first.burstDrop, second.virusDrop.trans first.virusDrop,
    second.eventDetect.trans first.eventDetect, second.newEventDetect.trans first.newEventDetect⟩

theorem countHost_flags {srcip seconds : UInt32} {ndh : Slot}
    (counted : d.countHost lan srcip seconds ndh = some d') : d'.history = d.history ∧ d.SameFlags d' := by
  unfold Detector.countHost at counted
  split at counted
  · obtain ⟨host, -, rfl⟩ := map_eq_some_iff.1 counted
    exact ⟨rfl, rfl, rfl, rfl, rfl⟩
  · obtain rfl := some.inj counted
    exact ⟨rfl, rfl, rfl, rfl, rfl⟩

/-- What a packet can do: it is not counted, it finds the table full, or it is counted in its slot. -/
theorem target_cases (ran : target lan d p = some (rc, d')) : (p.counted = false ∧ d' = d) ∨
    (p.counted = true ∧ (∀ slot ∈ d.history, slot.key ≠ p.key ∧ slot.ipaddr ≠ 0) ∧ d' = d.setLimit p.limit) ∨
    (p.counted = true ∧ ∃ before slot after, p.Takes d.history before slot after ∧
      d'.history = before ++ p.counting slot :: after ∧ d.SameFlags d') := by
  by_cases counted : p.counted = true
  · rcases takes_or_full p d.history with ⟨before, slot, after, takes⟩ | full
    · rw [target_of_takes counted takes] at ran
      obtain ⟨_, -, ran⟩ := bind_eq_some_iff.1 ran
      obtain ⟨last, host, same⟩ := map_eq_some_iff.1 ran
      obtain ⟨rfl, rfl⟩ := Prod.mk.inj same
      obtain ⟨history, kept⟩ := countHost_flags host
      have entered : d.SameFlags (d.entered p before.length slot) := ⟨rfl, rfl, rfl, rfl⟩
      exact .inr (.inr ⟨counted, before, slot, after, takes, history.trans (entered_history takes), entered.trans kept⟩)
    · rw [target_of_full counted full] at ran
      obtain ⟨-, rfl⟩ := Prod.mk.inj (some.inj ran)
      exact .inr (.inl ⟨counted, full, rfl⟩)
  · simp only [target, counted] at ran
    obtain ⟨-, rfl⟩ := Prod.mk.inj (some.inj ran)
    exact .inl ⟨by simpa using counted, rfl⟩

theorem target_flags (ran : target lan d p = some (rc, d')) : d.SameFlags d' := by
  rcases target_cases ran with ⟨-, rfl⟩ | ⟨-, -, rfl⟩ | ⟨-, _, _, _, -, -, kept⟩
  · exact ⟨rfl, rfl, rfl, rfl⟩
  · exact ⟨rfl, rfl, rfl, rfl⟩
  · exact kept

end RouterApps.Netdetect
