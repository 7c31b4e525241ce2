/-
# Iuxpc.Lansetup -- the LAN form (netconf_lansetup.js)

`CheckDHCPSetup` compares the two ends of the pool by their last octets.  In a network that is larger than 256
addresses this is not the order of the addresses (`dhcp_pool_accepted_iff`).

`CheckInternalSetup` compares the network with that of the WAN as texts, three characters at a time, as if every octet
had three digits.  The characters between these pieces do not count, and there may be digits
(`wan_clash_refused_iff`).
-/
import RouterApps.Iuxpc.Address

namespace RouterApps.Iuxpc

open JsLib Theory.Subnet List Option

/-- The elements of the form that are not octets of an address. -/
structure LanForm where
  /-- The buttons of `dhcp_enable`: their values, and whether they are checked. -/
  dhcpEnable : List (Text × Bool)
  miprange : Bool
  leasetime : Text
  wan1subnet : Text
  wan2subnet : Option Text

/-- `GetRadioValue` -/
def getRadioValue (buttons : List (Text × Bool)) : Text := ((buttons.find? Prod.snd).map Prod.fst).getD []

def ipName : Text := ['i', 'p']

def smName : Text := ['s', 'm']

def spoolConf : Text := ['s', 'p', 'o', 'o', 'l', '_', 'c', 'o', 'n', 'f']

def epoolConf : Text := ['e', 'p', 'o', 'o', 'l', '_', 'c', 'o', 'n', 'f']

/-- `CheckDHCPOptions`; `none` if `GetIP` has no result. -/
def checkDHCPOptions (doc : Document) (F : LanForm) : Option Bool :=
  if getRadioValue F.dhcpEnable = ['o', 'f', 'f'] || !F.miprange then some true
  else do
    let ipaddr ← getIP doc ipName
    let subnet ← getIP doc smName
    let sip ← getIP doc spoolConf
    let eip ← getIP doc epoolConf
    return [0, 1, 2, 3].all fun i =>
      let network := (part ipaddr i).toInt32 &&& (part subnet i).toInt32
      network = (part sip i).toInt32 &&& (part subnet i).toInt32 &&
        network = (part eip i).toInt32 &&& (part subnet i).toInt32

/-- The checks of `CheckDHCPSetup` on a manual pool, with the field that `CheckIPNetwork` refuses. -/
def checkPool (checkIPNetwork : Text → Option Text) (doc : Document) : Option Bool :=
  if (checkIP doc spoolConf).isSome || (checkIP doc epoolConf).isSome || (checkIPNetwork spoolConf).isSome ||
      (checkIPNetwork epoolConf).isSome then
    some false
  else do
    let start ← doc (spoolConf ++ natText 4)
    let stop ← doc (epoolConf ++ natText 4)
    return !(parseInt stop).lt (parseInt start)

/-- `CheckDHCPSetup`; `none` if a field is missing. -/
def checkDHCPSetup (checkIPNetwork : Text → Option Text) (doc : Document) (F : LanForm) : Option Bool :=
  if (F.dhcpEnable.head?.map Prod.snd).getD false then do
    let poolOk ← if F.miprange then checkPool checkIPNetwork doc else some true
    return poolOk && !(F.leasetime = ['-'] || isInteger F.leasetime = false)
  else some true

/-! ## The pool -/

/-- The four fields of a name show an address. -/
def Shows (doc : Document) (name : Text) (a : UInt32) : Prop := ∃ t, Fields doc name t ∧ DenotesAddress t a

/-- A form with the manual pool from `start` to `stop`. -/
structure ManualPool (doc : Document) (F : LanForm) (lan mask start stop : UInt32) : Prop where
  enabled : F.dhcpEnable.head?.map Prod.snd = some true
  value : getRadioValue F.dhcpEnable ≠ ['o', 'f', 'f']
  manual : F.miprange = true
  leasetime : F.leasetime ≠ ['-'] ∧ isInteger F.leasetime = true
  ip : Shows doc ipName lan
  sm : Shows doc smName mask
  spool : Shows doc spoolConf start
  epool : Shows doc epoolConf stop
  first : octet 0 start ≠ 0 ∧ octet 0 stop ≠ 0

section

variable {doc : Document} {F : LanForm} {lan mask start stop : UInt32} (pool : ManualPool doc F lan mask start stop)

include pool

theorem checkDHCPOptions_eq :
    checkDHCPOptions doc F = some (decide (start &&& mask = lan &&& mask ∧ stop &&& mask = lan &&& mask)) := by
  obtain ⟨_, ipFields, ip⟩ := pool.ip
  obtain ⟨_, smFields, sm⟩ := pool.sm
  obtain ⟨_, spoolFields, spool⟩ := pool.spool
  obtain ⟨_, epoolFields, epool⟩ := pool.epool
  rw [checkDHCPOptions, if_neg (by simp [pool.value, pool.manual]), getIP_eq ipFields ip, getIP_eq smFields sm,
    getIP_eq spoolFields spool, getIP_eq epoolFields epool]
  have bits : ∀ a (i : Fin 4), (part (dotted a) i).toInt32 = BitVec.ofNat 32 (octet i a) := fun a i => by
    rw [dotted, part_joined (denotes_natText_octet a), Number.toInt32_ofNat ((octet_lt i a).trans (by norm_num))]
  refine congrArg some (Bool.eq_iff_iff.2 ?_)
  rw [decide_eq_true_iff, ← masked_eq_iff, ← masked_eq_iff, ← forall_and]
  simp only [← bits]
  simp [Fin.forall_fin_succ]

theorem checkDHCPSetup_eq {checkIPNetwork : Text → Option Text} (accepts : ∀ name, checkIPNetwork name = none) :
    checkDHCPSetup checkIPNetwork doc F = some (decide (octet 3 start ≤ octet 3 stop)) := by
  obtain ⟨t, spoolFields, spool⟩ := pool.spool
  obtain ⟨u, epoolFields, epool⟩ := pool.epool
  have spoolOk := (checkIP_eq_none_iff spoolFields).2 ⟨start, pool.first.1, spool⟩
  have epoolOk := (checkIP_eq_none_iff epoolFields).2 ⟨stop, pool.first.2, epool⟩
  have spoolLast : doc (spoolConf ++ natText 4) = some (t 3) := spoolFields 3
  have epoolLast : doc (epoolConf ++ natText 4) = some (u 3) := epoolFields 3
  have order : (parseInt (u 3)).lt (parseInt (t 3)) = !decide (octet 3 start ≤ octet 3 stop) := by
    have small : octet 3 start < 2 ^ 53 := (octet_lt 3 start).trans (by decide)
    rw [(spool 3).parseInt, (epool 3).parseInt, Number.ofNat_of_lt small, Bool.eq_iff_iff, Number.ofNat_lt_iff small.le]
    simp
  simp [checkDHCPSetup, checkPool, pool.enabled, pool.manual, pool.leasetime, spoolOk, epoolOk, accepts, spoolLast,
    epoolLast, order]

/-- A pool of the network is accepted by its order exactly if the last octets are in the same order as the addresses. -/
theorem dhcp_pool_accepted_iff {checkIPNetwork : Text → Option Text} (accepts : ∀ name, checkIPNetwork name = none) :
    (checkDHCPSetup checkIPNetwork doc F = some true ∧ checkDHCPOptions doc F = some true ↔
        (start &&& mask = lan &&& mask ∧ stop &&& mask = lan &&& mask) ∧ start ≤ stop) ↔
      (start &&& mask = lan &&& mask → stop &&& mask = lan &&& mask →
        (octet 3 start ≤ octet 3 stop ↔ start ≤ stop)) := by
  rw [checkDHCPSetup_eq pool accepts, checkDHCPOptions_eq pool]
  simp only [Option.some.injEq, decide_eq_true_eq]
  tauto

end

/-- The form with the LAN address 192.168.0.1. -/
def poolDoc (mask start stop : UInt32) : Document :=
  sampleDoc [(ipName, 0xc0a80001), (smName, mask), (spoolConf, start), (epoolConf, stop)]

def poolForm : LanForm where
  dhcpEnable := [(['o', 'n'], true), (['o', 'f', 'f'], false)]
  miprange := true
  leasetime := ['7', '2', '0', '0']
  wan1subnet := []
  wan2subnet := none

theorem manualPool_poolDoc {mask start stop : UInt32} (first : octet 0 start ≠ 0 ∧ octet 0 stop ≠ 0) :
    ManualPool (poolDoc mask start stop) poolForm 0xc0a80001 mask start stop where
  enabled := rfl
  value := by decide
  manual := rfl
  leasetime := by decide
  ip := ⟨_, fields_sampleDoc rfl, denotes_natText_octet _⟩
  sm := ⟨_, fields_sampleDoc rfl, denotes_natText_octet _⟩
  spool := ⟨_, fields_sampleDoc rfl, denotes_natText_octet _⟩
  epool := ⟨_, fields_sampleDoc rfl, denotes_natText_octet _⟩
  first := first

/-- From 192.168.0.100 to 192.168.0.200 with 24 bits. -/
theorem dhcp_pool_accepted_hundred :
    checkDHCPSetup (fun _ => none) (poolDoc (maskOf 24) 0xc0a80064 0xc0a800c8) poolForm = some true ∧
      checkDHCPOptions (poolDoc (maskOf 24) 0xc0a80064 0xc0a800c8) poolForm = some true :=
  ((dhcp_pool_accepted_iff (manualPool_poolDoc (by decide)) fun _ => rfl).2 (by decide)).2 (by decide)

/-- With 16 bits, 192.168.0.200 to 192.168.1.10 is refused and 192.168.1.10 to 192.168.0.200 is accepted. -/
theorem wide_pool_reversed :
    checkDHCPSetup (fun _ => none) (poolDoc (maskOf 16) 0xc0a800c8 0xc0a8010a) poolForm = some false ∧
      checkDHCPSetup (fun _ => none) (poolDoc (maskOf 16) 0xc0a8010a 0xc0a800c8) poolForm = some true ∧
      checkDHCPOptions (poolDoc (maskOf 16) 0xc0a8010a 0xc0a800c8) poolForm = some true ∧
      (0xc0a800c8 : UInt32) ≤ 0xc0a8010a := by
  have up : ManualPool (poolDoc (maskOf 16) 0xc0a800c8 0xc0a8010a) _ _ _ _ _ := manualPool_poolDoc (by decide)
  have down : ManualPool (poolDoc (maskOf 16) 0xc0a8010a 0xc0a800c8) _ _ _ _ _ := manualPool_poolDoc (by decide)
  rw [checkDHCPSetup_eq up fun _ => rfl, checkDHCPSetup_eq down fun _ => rfl, checkDHCPOptions_eq down]
  decide

/-! ## The WAN subnets -/

/-- The messages of `CheckInternalSetup`. -/
inductive LanAlert
  | invalidIp
  | invalidNetmask
  | networkLanip
  | broadLanip
  | invalidNetwork
  deriving DecidableEq, Repr

/-- The WAN subnets that the form has. -/
def LanForm.subnets (F : LanForm) : List Text := F.wan1subnet :: (F.wan2subnet.filter (· ≠ [])).toList

/-- `CheckInternalSetup`: the message, `some none` if there is none; `none` if an address has no text. -/
def checkInternalSetup (doc : Document) (F : LanForm) : Option (Option LanAlert) :=
  if (checkIP doc ipName).isSome then some (some .invalidIp)
  else if (checkMask doc smName).isSome then some (some .invalidNetmask)
  else do
    let nwaddr ← getNetworkAddress doc ipName smName
    let braddr ← getLocalBroadcastAddress doc ipName smName
    let ipaddr ← getIP doc ipName
    return if nwaddr = ipaddr then some .networkLanip
      else if braddr = ipaddr then some .broadLanip
      else if F.subnets.any (checkSameSubnet nwaddr) then some .invalidNetwork
      else none

/-- Two subnets look alike: as texts they differ only between the pieces. -/
def Alike (a b : UInt32) : Prop := ∀ i < 15, i ∉ [3, 7, 11] → (dotted a)[i]? = (dotted b)[i]?

instance (a b : UInt32) : Decidable (Alike a b) := inferInstanceAs (Decidable (∀ i < 15, _))

theorem checkSameSubnet_dotted {a b : UInt32} : checkSameSubnet (dotted a) (dotted b) ↔ Alike a b := by
  simp only [checkSameSubnet, Bool.and_eq_true, decide_eq_true_eq, substr_eq_iff]
  constructor
  · rintro ⟨⟨⟨first, second⟩, third⟩, fourth⟩ i bound outside
    simp only [mem_cons] at outside
    rcases (by omega : i < 3 ∨ 4 ≤ i ∧ i < 7 ∨ 8 ≤ i ∧ i < 11 ∨ 12 ≤ i ∧ i < 15) with
      piece | piece | piece | piece
    · simpa using first i piece
    · simpa [Nat.add_sub_cancel' piece.1] using second (i - 4) (by omega)
    · simpa [Nat.add_sub_cancel' piece.1] using third (i - 8) (by omega)
    · simpa [Nat.add_sub_cancel' piece.1] using fourth (i - 12) (by omega)
  · intro alike
    refine ⟨⟨⟨?_, ?_⟩, ?_⟩, ?_⟩ <;> intro i bound <;> refine alike _ (by omega) ?_ <;>
      simp only [mem_cons, not_mem_nil, or_false] <;> omega

/-- The network of an accepted address is refused for the WAN's subnets exactly if it is one of them, unless the address
is an end of its network or another subnet looks like it. -/
theorem wan_clash_refused_iff {doc : Document} {F : LanForm} {lan mask : UInt32} {wans : List UInt32}
    (ip : Shows doc ipName lan) (sm : Shows doc smName mask) (ipOk : checkIP doc ipName = none)
    (smOk : checkMask doc smName = none) (subnets : F.subnets = wans.map dotted) :
    (checkInternalSetup doc F = some (some .invalidNetwork) ↔ lan &&& mask ∈ wans) ↔
      (lan &&& mask ∈ wans → lan &&& mask ≠ lan ∧ broadcast mask lan ≠ lan) ∧
      (lan &&& mask ∉ wans → lan &&& mask ≠ lan → broadcast mask lan ≠ lan →
        ∀ wan ∈ wans, ¬ Alike (lan &&& mask) wan) := by
  obtain ⟨_, ipFields, lanOk⟩ := ip
  obtain ⟨_, smFields, maskOk⟩ := sm
  have refused : checkInternalSetup doc F = some (some .invalidNetwork) ↔
      lan &&& mask ≠ lan ∧ broadcast mask lan ≠ lan ∧ ∃ wan ∈ wans, Alike (lan &&& mask) wan := by
    have text : ∀ {a b}, dotted a = dotted b ↔ a = b := ⟨dotted_injective, congrArg dotted⟩
    rw [checkInternalSetup, getNetworkAddress_eq ipFields smFields lanOk maskOk,
      getLocalBroadcastAddress_eq ipFields smFields lanOk maskOk, getIP_eq ipFields lanOk]
    simp only [bind_eq_bind, bind_some]
    split_ifs <;> simp_all [checkSameSubnet_dotted]
  have self : Alike (lan &&& mask) (lan &&& mask) := fun _ _ _ => rfl
  rw [refused]
  constructor
  · intro same
    refine ⟨fun member => ?_, fun outside network last wan member alike => ?_⟩
    · exact ⟨(same.2 member).1, (same.2 member).2.1⟩
    · exact outside (same.1 ⟨network, last, wan, member, alike⟩)
  · rintro ⟨clash, apart⟩
    refine ⟨?_, fun member => ⟨(clash member).1, (clash member).2, _, member, self⟩⟩
    rintro ⟨network, last, wan, member, alike⟩
    by_contra outside
    exact apart outside network last wan member alike

/-- The form with the WAN subnet. -/
def wanForm (wan : UInt32) : LanForm := { poolForm with wan1subnet := dotted wan }

/-- 192.168.0.1 with 24 bits is refused when the WAN is 192.168.0.0. -/
theorem wan_clash_refused_same :
    checkInternalSetup (poolDoc (maskOf 24) 0xc0a80064 0xc0a800c8) (wanForm 0xc0a80000) = some (some .invalidNetwork) := by
  have pool : ManualPool (poolDoc (maskOf 24) 0xc0a80064 0xc0a800c8) _ _ _ _ _ := manualPool_poolDoc (by decide)
  have subnets : (wanForm 0xc0a80000).subnets = [0xc0a80000].map dotted := rfl
  have accepted := wan_clash_refused_iff pool.ip pool.sm (by decide +kernel) (by decide +kernel) subnets
  exact (accepted.2 ⟨fun _ => by decide, fun outside => absurd (by decide) outside⟩).2 (by decide)

/-- 10.1.0.5 with 16 bits is refused when the WAN is 10.2.0.0. -/
theorem other_wan_refused :
    checkInternalSetup (sampleDoc [(ipName, 0x0a010005), (smName, maskOf 16)]) (wanForm 0x0a020000) =
        some (some .invalidNetwork) ∧
      (0x0a010005 : UInt32) &&& maskOf 16 ≠ 0x0a020000 := by
  decide +kernel

end RouterApps.Iuxpc
