/-
# Twinip.Exchange -- ARP between the router and a host that is no twin (twinip.c)

When the router asks a host of the LAN for its address on behalf of a twin, the request names the
virtual gateway, `.1` of the virtual network, as its sender.  For the answer there is a place in the
code that would replace the virtual address it is for by the WAN address of the twin ("CASE 3").

But that place is inside a branch for frames that come from a twin.  `ipcloneFromLanToWanFlags` is the
function with its flags, and `ipcloneFromLanToWanFlags_eq` says that a frame of any other host passes as
it is.  So the target of an answer is the WAN address afterwards only if it was before
(`reply_target_restored_iff`).
-/
import RouterApps.Twinip.Checksums

namespace RouterApps.Twinip

open CLib Function Option

/-! ## The function with its flags -/

/-- `ipcloned`, `dest_clone` and `ipcloned_id`. -/
structure Flags where
  ipcloned0 : Bool
  ipcloned1 : Bool
  destClone : Bool
  ipclonedId : Fin 2
deriving DecidableEq

def Flags.ipcloned (flags : Flags) : Bool := flags.ipcloned0 || flags.ipcloned1

/-- A frame from a twin, or an ARP reply to a virtual address; any other frame leaves the function
here. -/
def enterFlags (cfg : Config) (skb : Skb) : Option Flags :=
  let ipcloned0 := decide (skb.hSource = (cfg 0).mac)
  let ipcloned1 := decide (skb.hSource = (cfg 1).mac)
  if !ipcloned0 && !ipcloned1 then
    if htons skb.hProto = ethPArp then
      if skb.mem arOp ≠ arpopReply then none
      else if read32 skb.mem arTarget = htonl (cfg 0).virtualIp then some ⟨ipcloned0, ipcloned1, true, 0⟩
      else if read32 skb.mem arTarget = htonl (cfg 1).virtualIp then some ⟨ipcloned0, ipcloned1, true, 1⟩
      else none
    else none
  else some ⟨ipcloned0, ipcloned1, false, if ipcloned1 then 1 else 0⟩

/-- The virtual gateway, in host order. -/
def gateway (cfg : Config) : UInt32 := ((cfg 0).virtualIp &&& 0xffffff00) ||| 0x1

/-- The branch for ARP packets. -/
def arpByFlags (cfg : Config) (devIp : UInt32) (skip : Skip) (mem : Mem) (flags : Flags) : Skip × Mem :=
  let id := flags.ipclonedId
  let source := read32 mem arSource
  let target := read32 mem arTarget
  let virtualIp := htonl (cfg id).virtualIp
  let wanip := htonl (cfg id).wanip
  if mem arOp = arpopRequest ∧ flags.ipcloned then
    if sameNet devIp source then (update skip id true, mem)
    else if source = 0 then (skip, write32 mem arSource target)
    else if source ≠ target ∧ source ≠ virtualIp then (update skip id false, write32 mem arSource virtualIp)
    else if source = target ∧ source = wanip then (skip, write32 (write32 mem arSource virtualIp) arTarget virtualIp)
    else (skip, mem)
  else if mem arOp = arpopReply ∧ source ≠ target then
    if source = wanip ∧ flags.ipcloned then (skip, write32 mem arSource virtualIp)
    -- CASE 3
    else if source = htonl (gateway cfg) ∧ flags.destClone then (skip, write32 mem arTarget wanip)
    else (skip, mem)
  else (skip, mem)

/-- `ipclone_from_lan_to_wan`, as it is written. -/
def ipcloneFromLanToWanFlags (cfg : Config) (devIp : UInt32) (skip : Skip) (skb : Skb) : Skip × Skb :=
  match enterFlags cfg skb with
  | none => (skip, skb)
  | some flags =>
    let id := flags.ipclonedId
    if htons skb.hProto = ethPIp then
      let srcIp := read32 skb.mem saddr
      if (sameNet devIp srcIp ∨ srcIp = 0) ∧ flags.ipcloned then (update skip id true, skb)
      else if flags.ipcloned then (update skip id false, rewriteSource skb (htonl (cfg id).virtualIp))
      else (skip, skb)
    else if htons skb.hProto = ethPArp ∧ flags.ipcloned then
      let (skip, mem) := arpByFlags cfg devIp skip skb.mem flags
      (skip, { skb with mem := mem })
    else (skip, skb)

/-! ## Frames of twins and of other hosts -/

variable {cfg : Config} {skb : Skb} {flags : Flags}

theorem enterFlags_of_other (other : clonedId cfg skb.hSource = none)
    (entered : enterFlags cfg skb = some flags) : flags.ipcloned = false ∧ htons skb.hProto = ethPArp := by
  unfold clonedId at other
  split at other
  · cases other
  rename_i notSecond
  split at other
  · cases other
  rename_i notFirst
  simp only [enterFlags, notFirst, notSecond, decide_false, Bool.not_false, Bool.and_self, if_true] at entered
  split at entered
  · rename_i arp
    refine ⟨?_, arp⟩
    split at entered
    · cases entered
    · split at entered
      · obtain rfl := some.inj entered
        rfl
      · split at entered
        · obtain rfl := some.inj entered
          rfl
        · cases entered
  · cases entered

theorem enterFlags_of_twin {id : Fin 2} (twin : clonedId cfg skb.hSource = some id) :
    ∃ flags, enterFlags cfg skb = some flags ∧ flags.ipcloned = true ∧ flags.destClone = false ∧
      flags.ipclonedId = id := by
  unfold clonedId at twin
  split at twin
  · rename_i second
    obtain rfl := some.inj twin
    refine ⟨⟨decide (skb.hSource = (cfg 0).mac), true, false, 1⟩, ?_, ?_, rfl, rfl⟩
    · simp [enterFlags, second]
    · simp [Flags.ipcloned]
  · rename_i notSecond
    split at twin
    · rename_i first
      obtain rfl := some.inj twin
      refine ⟨⟨true, false, false, 0⟩, ?_, rfl, rfl, rfl⟩
      have isFirst := decide_eq_true first
      have notTwo := decide_eq_false notSecond
      simp only [enterFlags, isFirst, notTwo]
      rfl
    · cases twin

theorem arpByFlags_of_twin (cloned : flags.ipcloned = true) (notDest : flags.destClone = false)
    (devIp : UInt32) (skip : Skip) (mem : Mem) :
    arpByFlags cfg devIp skip mem flags = arpFromClone cfg devIp skip mem flags.ipclonedId := by
  unfold arpByFlags arpFromClone
  simp only [cloned, notDest, and_true]
  by_cases request : mem arOp = arpopRequest
  · rw [if_pos request, if_pos request]
  · rw [if_neg request, if_neg request]
    by_cases reply : mem arOp = arpopReply ∧ read32 mem arSource ≠ read32 mem arTarget
    · rw [if_pos reply]
      by_cases own : read32 mem arSource = htonl (cfg flags.ipclonedId).wanip
      · rw [if_pos own, if_pos ⟨reply.1, reply.2, own⟩]
      · rw [if_neg own, if_neg (by simp), if_neg fun both => own both.2.2]
    · rw [if_neg reply, if_neg fun both => reply ⟨both.1, both.2.1⟩]

/-- The place for answers of other hosts is never reached: what is not from a twin passes as it is. -/
theorem ipcloneFromLanToWanFlags_eq (cfg : Config) (devIp : UInt32) (skip : Skip) (skb : Skb) :
    ipcloneFromLanToWanFlags cfg devIp skip skb = ipcloneFromLanToWan cfg devIp skip skb := by
  unfold ipcloneFromLanToWanFlags ipcloneFromLanToWan
  cases found : clonedId cfg skb.hSource with
  | none =>
    cases entered : enterFlags cfg skb with
    | none => rfl
    | some flags =>
      obtain ⟨notCloned, arp⟩ := enterFlags_of_other found entered
      have notIp : htons skb.hProto ≠ ethPIp := by
        rw [arp]
        decide
      dsimp only
      rw [if_neg notIp, if_neg]
      rw [notCloned]
      exact fun both => absurd both.2 (by decide)
  | some id =>
    obtain ⟨flags, entered, cloned, notDest, same⟩ := enterFlags_of_twin found
    rw [entered]
    subst same
    simp only [cloned, and_true, if_true, arpByFlags_of_twin cloned notDest]

/-! ## The exchange -/

/-- The router asks a host on behalf of the twin `asked`, with the virtual gateway as the sender; a
host that is no twin answers to the virtual address of the twin `named`. -/
structure Exchange (cfg : Config) (skip : Skip) (request reply : Skb) (asked named : Fin 2) : Prop where
  requestArp : htons request.hProto = ethPArp
  requestOp : request.mem arOp = arpopRequest
  sender : read32 request.mem arSource = htonl (cfg asked).wanip
  rewritten : read32 (ipcloneFromWanToLan cfg skip request).mem arSource = htonl (gateway cfg)
  answering : clonedId cfg reply.hSource = none
  replyArp : htons reply.hProto = ethPArp
  replyOp : reply.mem arOp = arpopReply
  replySource : read32 reply.mem arSource = htonl (gateway cfg)
  replyTarget : read32 reply.mem arTarget = htonl (cfg named).virtualIp

theorem htonl_inj {a b : UInt32} : htonl a = htonl b ↔ a = b := by
  refine ⟨fun same => ?_, congrArg htonl⟩
  rw [← ntohl_htonl a, same, ntohl_htonl]

/-- **The answer to a request on behalf of a twin** has the WAN address of the twin as its target
after `ipclone_from_lan_to_wan` exactly if the virtual address that it was for is that WAN address.
-/
theorem reply_target_restored_iff (cfg : Config) (devIp : UInt32) (skip later : Skip) (request reply : Skb)
    (asked named : Fin 2) (exchange : Exchange cfg skip request reply asked named) :
    read32 (ipcloneFromLanToWanFlags cfg devIp later reply).2.mem arTarget = htonl (cfg asked).wanip ↔
      (cfg named).virtualIp = (cfg asked).wanip := by
  have unchanged : ipcloneFromLanToWanFlags cfg devIp later reply = (later, reply) := by
    rw [ipcloneFromLanToWanFlags_eq, ipcloneFromLanToWan, exchange.answering]
  rw [unchanged, exchange.replyTarget, htonl_inj]

/-- An ARP packet: its operation, and the addresses of its sender and its target. -/
def arpMem (op : UInt16) (source target : UInt32) : Mem :=
  write32 (write32 (update (fun _ => 0) arOp op) arSource source) arTarget target

def arpFrame (hDest hSource : Mac) (op : UInt16) (source target : UInt32) : Skb :=
  ⟨hDest, hSource, htons ethPArp, arpMem op source target, .checksumNone, 0⟩

def hostMac : Mac := #v[2, 0, 0, 0, 0, 10]

/-- The router asks for 192.168.0.10 from the WAN address of the first twin. -/
def twinRequest (cfg : Config) : Skb :=
  arpFrame hostMac routerMac arpopRequest (htonl (cfg 0).wanip) (htonl 0xc0a8000a)

/-- The answer. -/
def hostReply (cfg : Config) : Skb :=
  arpFrame routerMac hostMac arpopReply (htonl (gateway cfg)) (htonl (cfg 0).virtualIp)

/-- The virtual addresses are the WAN addresses. -/
def untranslated : Config := fun id => { sampleConfig id with wanip := (sampleConfig id).virtualIp }

/-- Then there is nothing to restore. -/
theorem reply_to_twin_without_translation :
    Exchange untranslated (fun _ => false) (twinRequest untranslated) (hostReply untranslated) 0 0 ∧
      read32 (ipcloneFromLanToWanFlags untranslated sampleDevIp (fun _ => false) (hostReply untranslated)).2.mem
        arTarget = htonl (untranslated 0).wanip := by
  have exchange : Exchange untranslated (fun _ => false) (twinRequest untranslated) (hostReply untranslated) 0 0 := by
    constructor <;> decide +kernel
  exact ⟨exchange, (reply_target_restored_iff untranslated sampleDevIp _ _ _ _ 0 0 exchange).2 rfl⟩

/-- With a WAN address of its own, the twin's virtual address stays in the answer. -/
theorem reply_target_not_restored :
    Exchange sampleConfig (fun _ => false) (twinRequest sampleConfig) (hostReply sampleConfig) 0 0 ∧
      read32 (ipcloneFromLanToWanFlags sampleConfig sampleDevIp (fun _ => false) (hostReply sampleConfig)).2.mem
        arTarget ≠ htonl (sampleConfig 0).wanip := by
  refine ⟨?_, by decide +kernel⟩
  constructor <;> decide +kernel

end RouterApps.Twinip
