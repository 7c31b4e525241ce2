/-
# Twinip.Frames -- the addresses of twin hosts in frames (twinip.c)

A twin is a host of the LAN that uses the address of a WAN interface.  Frames from its MAC
address get the virtual address of the twin as their source, and frames to it get the WAN
address back as their destination, unless the twin is skipped: it then still uses an address
of the LAN.

What follows the Ethernet header is a memory of 16-bit words, as a little-endian machine loads
them, with no end: the words behind the packet are what lies behind it in the buffer.  All
fields that are read and written stand at even offsets.  The variant for another switch
(`CONFIG_ARCH_TIMEG`) is not configured.
-/
import RouterApps.CLib.Memory
import RouterApps.Inet.Checksum

namespace RouterApps.Twinip

open CLib Inet Function

/-! ## Data -/

abbrev Mac := Vector UInt8 6

/-- `skb->ip_summed`. -/
inductive IpSummed
  | checksumNone
  | checksumUnnecessary
  | checksumComplete
  | checksumPartial
deriving DecidableEq

abbrev Mem := Nat → UInt16

/-- The Ethernet header, the memory from the network header on, and the state of the checksum. -/
structure Skb where
  hDest : Mac
  hSource : Mac
  hProto : UInt16
  mem : Mem
  ipSummed : IpSummed
  csum : UInt32

instance neZero_two : NeZero 2 := ⟨by decide⟩

/-- `ipclone_mac`, `ipclone_virtual_ip` and `ipclone_wanip`, addresses in host order. -/
structure Clone where
  mac : Mac
  virtualIp : UInt32
  wanip : UInt32

abbrev Config := Fin 2 → Clone

/-- `ipclone_skip`. -/
abbrev Skip := Fin 2 → Bool

def htons (x : UInt16) : UInt16 := UInt16.ofNat (x.toNat % 256 * 256 + x.toNat / 256)

def ethPIp : UInt16 := 0x0800

def ethPArp : UInt16 := 0x0806

def read32 (mem : Mem) (k : Nat) : UInt32 := UInt32.ofNat ((mem k).toNat + 65536 * (mem (k + 1)).toNat)

def write32 (mem : Mem) (k : Nat) (v : UInt32) : Mem :=
  update (update mem k (UInt16.ofNat (v.toNat % 65536))) (k + 1) (UInt16.ofNat (v.toNat / 65536))

/-! ## The fields of an IPv4 header -/

def ihl (mem : Mem) : Nat := (mem 0).toNat % 16

def totLen (mem : Mem) : Nat := (htons (mem 1)).toNat

/-- `htons(iph->frag_off)`. -/
def fragOff (mem : Mem) : Nat := (htons (mem 3)).toNat

def protocol (mem : Mem) : Nat := (mem 4).toNat / 256

/-- The word of `saddr`, and the one of `daddr`. -/
def saddr : Nat := 6

def daddr : Nat := 8

/-- The word `k` behind the header is word `payload mem k`. -/
def payload (mem : Mem) (k : Nat) : Nat := 2 * ihl mem + k

/-! ## Rewriting -/

/-- `inet_proto_csum_replace4` on the word `k`, with a pseudo-header. -/
def inetProtoCsumReplace4 (skb : Skb) (k : Nat) (old new : UInt32) : Skb :=
  if skb.ipSummed ≠ .checksumPartial then
    { skb with
      mem := update skb.mem k (csumReplace4 (skb.mem k) old new)
      csum := if skb.ipSummed = .checksumComplete then ~~~ csumPartial [~~~ old, new] (~~~ skb.csum) else skb.csum }
  else
    { skb with
      mem := update skb.mem k (~~~ csumFold (csumPartial [~~~ old, new] (skb.mem k).toUInt32)) }

/-- The address at word `k` of the IPv4 header becomes `new`. -/
def replaceAddress (mem : Mem) (k : Nat) (new : UInt32) : Mem :=
  write32 (update mem 5 (csumReplace4 (mem 5) (read32 mem k) new)) k new

/-- The checksum of UDP or TCP follows. -/
def replaceTransport (skb : Skb) (old new : UInt32) : Skb :=
  if protocol skb.mem = 17 ∧ fragOff skb.mem % 256 = 0 then
    if skb.mem (payload skb.mem 3) ≠ 0 then inetProtoCsumReplace4 skb (payload skb.mem 3) old new else skb
  else if protocol skb.mem = 6 ∧ fragOff skb.mem % 256 = 0 then
    inetProtoCsumReplace4 skb (payload skb.mem 8) old new
  else skb

/-- The packet in an ICMP message "port unreachable" or "need to fragment" gets `new` as its source. -/
def replaceEmbedded (mem : Mem) (new : UInt32) : Mem :=
  let typeAndCode := (mem (payload mem 0)).toNat
  if typeAndCode % 256 = 3 ∧ (typeAndCode / 256 = 3 ∨ typeAndCode / 256 = 4) then
    let old := read32 mem (payload mem 10)
    let check := csumReplace4 (mem (payload mem 9)) old new
    update (write32 mem (payload mem 10) new) (payload mem 9) check
  else mem

/-- A packet from a twin gets the source `new`. -/
def rewriteSource (skb : Skb) (new : UInt32) : Skb :=
  let old := read32 skb.mem saddr
  replaceTransport { skb with mem := replaceAddress skb.mem saddr new } old new

/-- A packet to a twin gets the destination `new`. -/
def rewriteDestination (skb : Skb) (new : UInt32) : Skb :=
  let old := read32 skb.mem daddr
  let skb := { skb with mem := replaceAddress skb.mem daddr new }
  if protocol skb.mem = 1 then { skb with mem := replaceEmbedded skb.mem new } else replaceTransport skb old new

/-! ## From the LAN -/

/-- The twin with this MAC address; the second one wins. -/
def clonedId (cfg : Config) (mac : Mac) : Option (Fin 2) :=
  if mac = (cfg 1).mac then some 1 else if mac = (cfg 0).mac then some 0 else none

/-- The addresses belong to one /24 network. -/
def sameNet (a b : UInt32) : Bool := a &&& htonl 0xffffff00 = b &&& htonl 0xffffff00

/-- The words of an ARP packet. -/
def arOp : Nat := 3

def arSource : Nat := 7

def arTarget : Nat := 12

def arpopRequest : UInt16 := htons 1

def arpopReply : UInt16 := htons 2

/-- An ARP packet from the twin `id`.  "CASE 3" asks for a sender that is no twin, and never comes
here. -/
def arpFromClone (cfg : Config) (devIp : UInt32) (skip : Skip) (mem : Mem) (id : Fin 2) : Skip × Mem :=
  let source := read32 mem arSource
  let target := read32 mem arTarget
  let virtualIp := htonl (cfg id).virtualIp
  let wanip := htonl (cfg id).wanip
  if mem arOp = arpopRequest then
    if sameNet devIp source then (update skip id true, mem)
    else if source = 0 then (skip, write32 mem arSource target)
    else if source ≠ target ∧ source ≠ virtualIp then (update skip id false, write32 mem arSource virtualIp)
    else if source = target ∧ source = wanip then (skip, write32 (write32 mem arSource virtualIp) arTarget virtualIp)
    else (skip, mem)
  else if mem arOp = arpopReply ∧ source ≠ target ∧ source = wanip then (skip, write32 mem arSource virtualIp)
  else (skip, mem)

/-- `ipclone_from_lan_to_wan`; a frame that is not from a twin passes as it is. -/
def ipcloneFromLanToWan (cfg : Config) (devIp : UInt32) (skip : Skip) (skb : Skb) : Skip × Skb :=
  match clonedId cfg skb.hSource with
  | none => (skip, skb)
  | some id =>
    if htons skb.hProto = ethPIp then
      let srcIp := read32 skb.mem saddr
      if sameNet devIp srcIp ∨ srcIp = 0 then (update skip id true, skb)
      else (update skip id false, rewriteSource skb (htonl (cfg id).virtualIp))
    else if htons skb.hProto = ethPArp then
      let (skip, mem) := arpFromClone cfg devIp skip skb.mem id
      (skip, { skb with mem := mem })
    else (skip, skb)

/-! ## To the LAN -/

/-- An ARP packet to the LAN; `id` is the twin it is sent to, or the first. -/
def arpToLan (cfg : Config) (skip : Skip) (mem : Mem) (id : Fin 2) : Mem :=
  let source := read32 mem arSource
  let target := read32 mem arTarget
  if skip 0 ∧ skip 1 then mem
  else if mem arOp = arpopRequest then
    if target = htonl (cfg 0).virtualIp ∧ !skip 0 then write32 mem arTarget (htonl (cfg 0).wanip)
    else if target = htonl (cfg 1).virtualIp ∧ !skip 1 then write32 mem arTarget (htonl (cfg 1).wanip)
    else if source = htonl (cfg 0).wanip ∨ source = htonl (cfg 1).wanip then
      write32 mem arSource (htonl (((cfg 0).virtualIp &&& 0xffffff00) ||| 0x1))
    else mem
  else if mem arOp = arpopReply ∧ target = htonl (cfg id).virtualIp then write32 mem arTarget (htonl (cfg id).wanip)
  else mem

def ipcloneFromWanToLan (cfg : Config) (skip : Skip) (skb : Skb) : Skb :=
  if htons skb.hProto = ethPIp then
    match clonedId cfg skb.hDest with
    | none => skb
    | some id =>
      if skip id ∨ (cfg id).virtualIp = 0 then skb else rewriteDestination skb (htonl (cfg id).wanip)
  else if htons skb.hProto = ethPArp then
    { skb with mem := arpToLan cfg skip skb.mem ((clonedId cfg skb.hDest).getD 0) }
  else skb

/-- The handlers are switched on by a virtual address that is not 0. -/
def active (cfg : Config) : Bool := (cfg 0).virtualIp ≠ 0 || (cfg 1).virtualIp ≠ 0

/-- `twinip_rx`; `isLocal` says that the device is `CONFIG_LOCAL_IFNAME`. -/
def twinipRx (cfg : Config) (devIp : UInt32) (isLocal : Bool) (skip : Skip) (skb : Skb) : Skip × Skb :=
  if active cfg ∧ isLocal then ipcloneFromLanToWan cfg devIp skip skb else (skip, skb)

def twinipTx (cfg : Config) (isLocal : Bool) (skip : Skip) (skb : Skb) : Skb :=
  if active cfg ∧ isLocal then ipcloneFromWanToLan cfg skip skb else skb

end RouterApps.Twinip
