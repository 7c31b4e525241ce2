/-
# Inet.Interface -- the addresses of the local interface (nf_conntrack_core.c)

`check_local_ip` and `check_internal_subnet` walk the address list of the local interface.  The hosts of
the LAN are numbered by the last byte of the address, with two more numbers for the virtual addresses
of twin IP.
-/
import RouterApps.CLib.Memory

namespace RouterApps.Inet

open CLib

/-- The fields of `struct in_ifaddr` that are read, in network order. -/
structure InIfaddr where
  address : UInt32
  mask : UInt32
deriving DecidableEq

/-- Its `ifa_list`, empty if there is no such device, and whether the kernel is built with
`CONFIG_DRIVERLEVEL_REAL_IPCLONE`. -/
structure Lan where
  ifaList : List InIfaddr
  realIpclone : Bool
deriving DecidableEq

def checkLocalIp (lan : Lan) (ipaddr : UInt32) : Bool :=
  lan.ifaList.any fun ifa => ipaddr = ifa.address

/-- The loop of `check_internal_subnet`: the first subnet that holds the address. -/
def internalSubnetOf (ipaddr : UInt32) : List InIfaddr → UInt32
  | [] => 0
  | ifa :: rest =>
    if ipaddr &&& ifa.mask = ifa.address &&& ifa.mask then ifa.address &&& ifa.mask
    else internalSubnetOf ipaddr rest

/-- `check_internal_subnet`, as its callers use it: true if the subnet is not 0. -/
def checkInternalSubnet (lan : Lan) (ipaddr : UInt32) : Bool :=
  internalSubnetOf ipaddr lan.ifaList ≠ 0

/-- `ntohl(ipaddr) & 0xff`. -/
def lastByte (ipaddr : UInt32) : Nat := (ntohl ipaddr &&& 0xff).toNat

theorem lastByte_lt (ipaddr : UInt32) : lastByte ipaddr < 256 := by
  have bound : (ntohl ipaddr &&& 0xff).toNat ≤ 255 := by
    exact Nat.and_le_right
  exact Nat.lt_succ_of_le bound

def ipcloneWan1VirtualIp : UInt32 := 0xc0a8ff02

def ipcloneWan2VirtualIp : UInt32 := 0xc0a8ff03

def getIpidxByIpaddr (lan : Lan) (ipaddr : UInt32) : Nat :=
  if lan.realIpclone ∧ htonl ipaddr = ipcloneWan1VirtualIp then 256
  else if lan.realIpclone ∧ htonl ipaddr = ipcloneWan2VirtualIp then 257
  else lastByte ipaddr

theorem getIpidxByIpaddr_lt (lan : Lan) (ipaddr : UInt32) : getIpidxByIpaddr lan ipaddr < 258 := by
  have := lastByte_lt ipaddr
  unfold getIpidxByIpaddr
  split
  · omega
  · split <;> omega

end RouterApps.Inet
