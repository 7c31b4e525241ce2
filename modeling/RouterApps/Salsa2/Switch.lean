/-
# Salsa2.Switch -- multicast groups in the switch (salsa2.c, mv_salsa2_api.c)

The multicast proxy and the kernel driver each keep a table of 64 groups, with slots of their
own.  The proxy gives its slot for a group as the index of the port map, by which the driver
registers the MAC address of the group; bit 15 of the index asks for removal.  The port map goes
to the register of the proxy's slot.

`none` is a slot of the driver's table outside 0..63: its function uses the index -1 that the
search returns without a look at it.  What the driver writes to the MAC table of the chip
is left out, but for the index of the port map, which its own table keeps.
-/
import RouterApps.CLib.Memory
import RouterApps.Theory.Run
import RouterApps.Theory.Slots

namespace RouterApps.Salsa2

open CLib Theory
open Theory.Slots

def maxMgroup : Nat := 64

def mgroupBaseIndex : UInt16 := 256

/-! ## The driver -/

/-- `struct mgroup_table_s` of the driver. -/
structure KernelGroup where
  mac : Block 6
  vidx : UInt16
deriving DecidableEq

def KernelGroup.zero : KernelGroup := ⟨Block.zero 6, 0⟩

def KernelGroup.free (s : KernelGroup) : Bool := s.vidx = 0

abbrev KernelTable := SlotArray KernelGroup maxMgroup

/-- `get_mgroup_index` of the driver. -/
def KernelTable.getMgroupIndex (t : KernelTable) (mac : Block 6) : Option Nat :=
  slotFor (fun s => s.mac = mac) KernelGroup.free t.list 0 none

/-- `mac[0] == 0x01` -/
def isGroup (mac : Block 6) : Bool := mac.bytes.head? = some 0x01

/-- `mv_salsa2_regist_mac`. -/
def registMac (mac : Block 6) (port : UInt16) (t : KernelTable) : Option KernelTable :=
  let vidx := if isGroup mac then port &&& 0x7fff else 0x1ff
  let midx := t.getMgroupIndex mac
  if isGroup mac then
    if port &&& 0x8000 ≠ 0 then midx.map fun i => t.set i KernelGroup.zero
    else midx.map fun i => t.set i ⟨mac, vidx⟩
  else some t

/-! ## The proxy -/

/-- `struct mgroup_table_s` of the proxy. -/
structure Mgroup where
  mac : Block 6
  portmap : UInt32
deriving DecidableEq

def Mgroup.zero : Mgroup := ⟨Block.zero 6, 0⟩

def Mgroup.free (s : Mgroup) : Bool := s.portmap = 0

abbrev MgroupTable := SlotArray Mgroup maxMgroup

/-- `get_mgroup_index` of the proxy. -/
def MgroupTable.getMgroupIndex (t : MgroupTable) (mac : Block 6) : Option Nat :=
  slotFor (fun s => s.mac = mac) Mgroup.free t.list 0 none

/-- `SALSA2_MULTICAST_GROUP_REG + SALSA2_MULTICAST_GROUP_STEP * midx` -/
def groupReg (midx : Nat) : Nat := 0x0a004000 + 0x4 * midx

/-- Both tables, and what was last written to each register of the switch. -/
structure Switch where
  mgroupTable : MgroupTable
  kernel : KernelTable
  registers : Nat → Option UInt32

/-- The fields of `struct group` that the switch is told. -/
structure Group where
  a1 : UInt8
  a2 : UInt8
  a3 : UInt8
  portMap : UInt32
deriving DecidableEq

/-- The MAC address of the group: 01:00:5e and three bytes of its address. -/
def Group.mac (entry : Group) : Block 6 := ⟨[0x01, 0x00, 0x5e, entry.a1, entry.a2, entry.a3], rfl⟩

/-- `1 << igmp_router_port` if there is a router port. -/
def routerBit (igmpRouterPort : Int) : UInt32 :=
  if 0 ≤ igmpRouterPort ∧ igmpRouterPort < 32 then 1 <<< igmpRouterPort.toNat.toUInt32 else 0

/-- The port map that goes to the switch; port 0 of it is the CPU. -/
def Group.switchMap (entry : Group) (igmpRouterPort : Int) : UInt32 :=
  if entry.portMap ≠ 0 then entry.portMap <<< 1 ||| routerBit igmpRouterPort else 0

/-- `mv_salsa2_write_register` -/
def Switch.writeRegister (s : Switch) (reg : Nat) (value : UInt32) : Switch :=
  { s with registers := Function.update s.registers reg (some value) }

/-- The call of the driver. -/
def Switch.registMac (s : Switch) (mac : Block 6) (port : UInt16) : Option Switch :=
  (Salsa2.registMac mac port s.kernel).map fun kernel => { s with kernel := kernel }

def Switch.setSlot (s : Switch) (midx : Nat) (slot : Mgroup) : Switch :=
  { s with mgroupTable := s.mgroupTable.set midx slot }

/-- `MGROUP_BASE_INDEX + midx`, as the argument of the driver's function. -/
def mgroupPort (midx : Nat) : UInt16 := mgroupBaseIndex + midx.toUInt16

def updateMacTable (entry : Group) (igmpRouterPort : Int) (s : Switch) : Option Switch :=
  match s.mgroupTable.getMgroupIndex entry.mac with
  | none => some s
  | some midx =>
    let portMap := entry.switchMap igmpRouterPort
    if entry.portMap ≠ 0 then do
      let s ← (s.setSlot midx ⟨entry.mac, portMap⟩).registMac entry.mac (mgroupPort midx)
      some (s.writeRegister (groupReg midx) portMap)
    else do
      let s ← (s.setSlot midx Mgroup.zero).registMac entry.mac (mgroupPort midx ||| 0x8000)
      some (s.writeRegister (groupReg midx) portMap)

/-- The rule for 224.0.0.1 of `create_all_hosts_rule`, and of `destory_all_hosts_rule`. -/
def allHosts (portMap : UInt32) : Group := ⟨0x00, 0x00, 0x01, portMap⟩

def switchInit (igmpRouterPort : Int) (s : Switch) : Option Switch :=
  updateMacTable (allHosts 0x1ffffff) igmpRouterPort
    { s with mgroupTable := SlotArray.all maxMgroup Mgroup.zero }

/-- One turn of the loop of `switch_fini`. -/
def finiSlot (midx : Nat) (slot : Mgroup) (s : Switch) : Option Switch :=
  if slot.portmap ≠ 0 then do
    let s ← s.registMac slot.mac (mgroupPort midx ||| 0x80)
    some (s.writeRegister (groupReg midx) 0)
  else some s

def finiLoop : List Mgroup → Nat → Switch → Option Switch
  | [], _, s => some s
  | slot :: rest, midx, s => (finiSlot midx slot s).bind (finiLoop rest (midx + 1))

def switchFini (igmpRouterPort : Int) (s : Switch) : Option Switch :=
  (finiLoop s.mgroupTable.list 0 s).bind (updateMacTable (allHosts 0x0) igmpRouterPort)

/-! ## Runs of the proxy -/

/-- A call of `updateMacTable`, with the router port at the time. -/
structure Update where
  entry : Group
  igmpRouterPort : Int

def Update.apply (u : Update) (s : Switch) : Option Switch := updateMacTable u.entry u.igmpRouterPort s

/-- One run: the updates between `switch_init` and `switch_fini`, and the router port at these. -/
structure Run where
  initPort : Int
  updates : List Update
  finiPort : Int

def Run.exec (r : Run) (s : Switch) : Option Switch := do
  let s ← switchInit r.initPort s
  let s ← replay (fun s u => Update.apply u s) r.updates s
  switchFini r.finiPort s

/-- No group is left in the driver's table, and no port in a register. -/
structure Switch.Clean (s : Switch) : Prop where
  kernel : ∀ g ∈ s.kernel.list, isGroup g.mac = false
  registers : ∀ reg value, s.registers reg = some value → value = 0

/-- Every run of the sequence stays inside the driver's table and leaves the switch clean. -/
def LeftClean : List Run → Switch → Prop
  | [], _ => True
  | r :: rest, s => ∃ s', r.exec s = some s' ∧ s'.Clean ∧ LeftClean rest s'

/-- Before the first run: the driver's table is empty and no register was written. -/
def fresh (mgroupTable : MgroupTable) : Switch :=
  ⟨mgroupTable, SlotArray.all maxMgroup KernelGroup.zero, fun _ => none⟩

end RouterApps.Salsa2
