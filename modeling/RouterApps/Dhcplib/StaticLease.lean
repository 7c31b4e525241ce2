/-
# Dhcplib.StaticLease -- the static lease library (new_dhcplib.c)

The reservations are kept in a file of records, 24 bytes each.  Every operation reads the file into an
array of `max_static_lease` elements, in which the addresses are text, works on the array and writes
the records back.

An access past the array is `none`, and so is a `strcpy` that does not fit and a hardware address that
`strtomac` does not read.  A file is `none` when it cannot be opened for reading.
-/
import RouterApps.CLib.Stream
import RouterApps.CLib.Text
import RouterApps.Udhcpd.Leases

namespace RouterApps.Dhcplib

open CLib Udhcpd List

/-! ## Data -/

/-- The size of the text fields of `dhcpd_lease_info_t`. -/
def textLen : Nat := 20

/-- `dhcpd_lease_info_t`, without the host name that no static lease has. -/
structure LeaseInfo where
  ipAddr : CharArray textLen
  hwAddr : CharArray textLen
  expires : Int32
deriving DecidableEq

/-- What `memset` leaves. -/
def LeaseInfo.zero : LeaseInfo := ⟨⟨CString.empty, by decide⟩, ⟨CString.empty, by decide⟩, 0⟩

/-- The fields of `dhcpd_conf_t` that the static leases depend on. -/
structure DhcpdConf where
  leasetime : Int32
  maxStaticLease : Int
deriving DecidableEq

/-- `ERROR_MANUAL_IPALLOC_ALREADY_EXIST_IP`. -/
def alreadyExistIp : Int := 1

/-- `ERROR_MANUAL_IPALLOC_ALREADY_EXIST_MAC`. -/
def alreadyExistMac : Int := 2

/-! ## The file -/

/-- `sizeof (struct dhcpOfferedStaticAddr)`. -/
def staticLeaseSize : Nat := 16 + 4 + 4

def staticRecord (lease : StaticLease) : List UInt8 :=
  lease.chaddr.bytes ++ leBytes lease.yiaddr ++ leBytes lease.expires

/-- `fread` into a `struct dhcpOfferedStaticAddr`, given the 24 bytes. -/
def staticLeaseOfRecord (record : List UInt8) : StaticLease :=
  ⟨⟨(record ++ replicate 16 0).take 16, by simp⟩, leWord ((record.drop 16).take 4), leWord ((record.drop 20).take 4)⟩

def staticLeases (file : Option (List UInt8)) : List StaticLease :=
  (freadAll staticLeaseSize (file.getD [])).map staticLeaseOfRecord

/-- The six bytes of the hardware address. -/
def macOfChaddr (chaddr : Chaddr) : Block 6 :=
  ⟨chaddr.bytes.take 6, by rw [length_take, chaddr.size]; rfl⟩

/-- A cleared `chaddr` with the six bytes in front. -/
def chaddrOfMac (mac : Block 6) : Chaddr :=
  ⟨mac.bytes ++ replicate 10 0, by rw [length_append, mac.size, length_replicate]⟩

/-- The body of the reading loop: the addresses are printed. -/
def leaseInfo (lease : StaticLease) : LeaseInfo where
  ipAddr := ⟨(inetNtoa lease.yiaddr).toCString, (inetNtoa lease.yiaddr).fits.trans (by decide)⟩
  hwAddr := ⟨(macText (macOfChaddr lease.chaddr)).toCString,
    (macText (macOfChaddr lease.chaddr)).fits.trans (by decide)⟩
  expires := lease.expires.toInt32

/-- The loop of `dhcpd_get_all_static_lease`; it ends when `i` reaches `max`. -/
def getLoop (max : Int) : List StaticLease → Nat → List LeaseInfo → Option (Nat × List LeaseInfo)
  | [], i, leaseArr => some (i, leaseArr)
  | lease :: rest, i, leaseArr =>
    if i < leaseArr.length then
      if ((i + 1 : Nat) : Int) = max then some (i + 1, leaseArr.set i (leaseInfo lease))
      else getLoop max rest (i + 1) (leaseArr.set i (leaseInfo lease))
    else none

/-- Without an array the records are only counted. -/
def dhcpdGetAllStaticLease (file : Option (List UInt8)) (leaseArr : Option (List LeaseInfo))
    (max : Int) : Option (Nat × List LeaseInfo) :=
  match leaseArr with
  | none => some ((staticLeases file).length, [])
  | some leaseArr => getLoop max (staticLeases file) 0 leaseArr

/-- The body of the writing loop: the texts are read. -/
def staticLease (info : LeaseInfo) : Option StaticLease :=
  (strtomac info.hwAddr.toCString).map fun mac =>
    ⟨chaddrOfMac mac, inetAddr info.ipAddr.toCString, info.expires.toUInt32⟩

/-- The file after `dhcpd_set_all_static_lease`. -/
def dhcpdSetAllStaticLease (leaseArr : List LeaseInfo) (count : Nat) : Option (List UInt8) :=
  if count ≤ leaseArr.length then
    ((leaseArr.take count).mapM staticLease).map fun leases => (leases.map staticRecord).flatten
  else none

/-! ## The operations -/

/-- How every operation starts.  A negative size is a huge one to `malloc`, which then returns NULL.
-/
def loadLeases (config : DhcpdConf) (file : Option (List UInt8)) : Option (Nat × List LeaseInfo) :=
  if 0 ≤ config.maxStaticLease then
    dhcpdGetAllStaticLease file (some (replicate config.maxStaticLease.toNat LeaseInfo.zero)) config.maxStaticLease
  else none

/-- The search policy: what is given must match, and something must be given. -/
def searchMatches (ipAddr macAddr : Option CString) (info : LeaseInfo) : Bool :=
  match ipAddr, macAddr with
  | some ip, none => ip = info.ipAddr.toCString
  | none, some mac => mac = info.hwAddr.toCString
  | some ip, some mac => mac = info.hwAddr.toCString && ip = info.ipAddr.toCString
  | none, none => false

/-- The return value of `dhcpd_add_static_lease`, and the file. -/
def dhcpdAddStaticLease (config : DhcpdConf) (file : Option (List UInt8)) (ipAddr hwAddr : CString) :
    Option (Int × Option (List UInt8)) := do
  let (count, leaseArr) ← loadLeases config file
  match (leaseArr.take count).find? fun info =>
      ipAddr = info.ipAddr.toCString || hwAddr = info.hwAddr.toCString with
  | some info =>
    if ipAddr = info.ipAddr.toCString then some (alreadyExistIp, file)
    else some (alreadyExistMac, file)
  | none =>
    -- the source does not compare `count` with the size of the array
    if count < leaseArr.length then
      let ip ← strcpy textLen ipAddr
      let hw ← strcpy textLen hwAddr
      let file ← dhcpdSetAllStaticLease (leaseArr.set count ⟨ip, hw, config.leasetime⟩) (count + 1)
      some (0, some file)
    else none

/-- The loop of `dhcpd_remove_static_lease` from `idx`, with the steps left. -/
def removeLoop (ipAddr macAddr : Option CString) (count : Nat) :
    Nat → Nat → Bool → List LeaseInfo → Option (Bool × List LeaseInfo)
  | 0, _, foundit, leaseArr => some (foundit, leaseArr)
  | left + 1, idx, foundit, leaseArr => do
    let info ← leaseArr[idx]?
    let foundit := foundit || searchMatches ipAddr macAddr info
    if foundit && idx != count - 1 then
      let next ← leaseArr[idx + 1]?
      removeLoop ipAddr macAddr count left (idx + 1) foundit (leaseArr.set idx next)
    else removeLoop ipAddr macAddr count left (idx + 1) foundit leaseArr

/-- The copy of the hardware address that is compared. -/
def removeMac : Option CString → Option (Option CString)
  | none => some none
  | some hwAddr =>
    (strcpy textLen hwAddr).map fun mac =>
      some (if hyphen ∈ mac.bytes then convertMac2 mac.toCString else mac.toCString)

/-- The return value of `dhcpd_remove_static_lease`, and the file. -/
def dhcpdRemoveStaticLease (config : DhcpdConf) (file : Option (List UInt8))
    (ipAddr hwAddr : Option CString) : Option (Int × Option (List UInt8)) := do
  let macAddr ← removeMac hwAddr
  let (count, leaseArr) ← loadLeases config file
  let (foundit, leaseArr) ← removeLoop ipAddr macAddr count count 0 false leaseArr
  if foundit then
    let file ← dhcpdSetAllStaticLease leaseArr (count - 1)
    some (0, some file)
  else some (0, file)

end RouterApps.Dhcplib
