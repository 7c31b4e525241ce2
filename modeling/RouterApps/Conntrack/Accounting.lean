/-
# Conntrack.Accounting -- connections and their counters (nf_conntrack_core.c, nf_nat_rule.c)

The router limits the share of the connection table that one LAN host may use.  It counts connections
by host number, in `conntrack_count_per_ip`, with one number for connections to the router and one for
connections from outside.  The number is computed from the tuples of a connection whenever it is
charged or discharged; NAT and expectations change the reply tuple in between.

The counters are natural numbers, as they count objects of a 32-bit address space; the product in the
check does wrap around.  `early_drop` is a step of its own; whether it freed a connection, and whether
there was memory, is part of an allocation.
-/
import RouterApps.Inet.Interface
import RouterApps.Theory.Run
import RouterApps.Theory.Tally

namespace RouterApps.Conntrack

open Inet Theory Theory.Tally

/-! ## Data -/

/-- The fields of `struct nf_conntrack_tuple` that are read; addresses are in network order. -/
structure Tuple where
  src : UInt32
  dst : UInt32
  protonum : UInt8
deriving DecidableEq

/-- `tuplehash[IP_CT_DIR_ORIGINAL]` and `tuplehash[IP_CT_DIR_REPLY]` of a `struct nf_conn`. -/
structure Conn where
  original : Tuple
  reply : Tuple
deriving DecidableEq

def maxRateIpNum : Nat := 258

/-- An index of `conntrack_count_per_ip`. -/
abbrev Ipidx := Fin maxRateIpNum

def lancpuIpidx : Ipidx := ⟨0, by decide⟩

def wancpuIpidx : Ipidx := ⟨255, by decide⟩

/-- What is set from outside. -/
structure Limits where
  lan : Lan
  nfConntrackMax : Nat
  maxRatePerIp : Int32
  tcpConntrackMax : Nat
  udpConntrackMax : Nat
  icmpConntrackMax : Nat
deriving DecidableEq

/-- The connections that exist, and the counters. -/
structure Tracker where
  live : List Conn
  countPerIp : Ipidx → Nat
  tcpConnCount : Nat
  udpConnCount : Nat
  icmpConnCount : Nat
  /-- `net->ct.count`. -/
  count : Nat

def Tracker.empty : Tracker := ⟨[], fun _ => 0, 0, 0, 0, 0⟩

def ipprotoIcmp : UInt8 := 1

def ipprotoTcp : UInt8 := 6

def ipprotoUdp : UInt8 := 17

/-! ## Indices -/

/-- `get_ipidx_by_ipaddr`. -/
def ipidxOf (lan : Lan) (ipaddr : UInt32) : Ipidx := ⟨getIpidxByIpaddr lan ipaddr, getIpidxByIpaddr_lt lan ipaddr⟩

/-- `get_conntrack_count_per_ip_index`; the reply tuple may be missing. -/
def getConntrackCountPerIpIndex (lan : Lan) (orgTuple : Tuple) (replTuple : Option Tuple) : Ipidx :=
  if checkLocalIp lan orgTuple.dst then lancpuIpidx
  else if checkInternalSubnet lan orgTuple.src then ipidxOf lan orgTuple.src
  else
    match replTuple with
    | some replTuple => if checkInternalSubnet lan replTuple.src then ipidxOf lan replTuple.src else wancpuIpidx
    | none => wancpuIpidx

/-- The index that the current tuples of a connection map to. -/
def Conn.index (lan : Lan) (ct : Conn) : Ipidx := getConntrackCountPerIpIndex lan ct.original (some ct.reply)

/-- The test against the rate; `unsigned` arithmetic. -/
def Limits.belowRate (limits : Limits) (count : Nat) : Bool :=
  count * 100 % 2 ^ 32 / limits.nfConntrackMax < limits.maxRatePerIp.toUInt32.toNat

def Limits.unlimited (limits : Limits) : Bool := limits.nfConntrackMax = 0 || limits.maxRatePerIp = 0

/-- `check_conntrack_ratio_per_ip`: may the connection pass, and `passme`. -/
def checkConntrackRatioPerIp (limits : Limits) (t : Tracker) (orgTuple : Tuple) : Bool × Bool :=
  let ipidx := getConntrackCountPerIpIndex limits.lan orgTuple none
  if ipidx = lancpuIpidx ∨ ipidx = wancpuIpidx then (true, true)
  else if limits.unlimited then (true, false)
  else (limits.belowRate (t.countPerIp ipidx), false)

/-! ## Charging -/

/-- `increase_conntrack_count_per_ip`. -/
def Tracker.increase (lan : Lan) (ct : Conn) (t : Tracker) : Tracker :=
  { t with countPerIp := raise t.countPerIp (ct.index lan) }

/-- `decrease_conntrack_count_per_ip`. -/
def Tracker.decrease (lan : Lan) (ct : Conn) (t : Tracker) : Tracker :=
  { t with countPerIp := lower t.countPerIp (ct.index lan) }

/-- The protocol counters, one connection more. -/
def Tracker.countProtocol (protonum : UInt8) (t : Tracker) : Tracker :=
  if protonum = ipprotoTcp then { t with tcpConnCount := t.tcpConnCount + 1 }
  else if protonum = ipprotoIcmp then { t with icmpConnCount := t.icmpConnCount + 1 }
  else if protonum = ipprotoUdp then { t with udpConnCount := t.udpConnCount + 1 }
  else t

/-- The protocol counters, one connection less; a counter at 0 is left alone. -/
def Tracker.uncountProtocol (protonum : UInt8) (t : Tracker) : Tracker :=
  if protonum = ipprotoTcp ∧ t.tcpConnCount ≠ 0 then { t with tcpConnCount := t.tcpConnCount - 1 }
  else if protonum = ipprotoUdp ∧ t.udpConnCount ≠ 0 then { t with udpConnCount := t.udpConnCount - 1 }
  else if protonum = ipprotoIcmp ∧ t.icmpConnCount ≠ 0 then { t with icmpConnCount := t.icmpConnCount - 1 }
  else t

/-! ## Allocating and freeing -/

def protocolFull (limits : Limits) (t : Tracker) (protonum : UInt8) : Bool :=
  if limits.icmpConntrackMax ≠ 0 ∧ protonum = ipprotoIcmp ∧ t.icmpConnCount ≥ limits.icmpConntrackMax then true
  else if limits.udpConntrackMax ≠ 0 ∧ protonum = ipprotoUdp ∧ t.udpConnCount ≥ limits.udpConntrackMax then true
  else limits.tcpConntrackMax ≠ 0 ∧ protonum = ipprotoTcp ∧ t.tcpConnCount ≥ limits.tcpConntrackMax

/-- `nf_conntrack_alloc`; `none` is `-ENOMEM`, which leaves everything as it was.  `dropped` is what
`early_drop` returns, `memory` whether there is any. -/
def nfConntrackAlloc (limits : Limits) (original reply : Tuple) (dropped memory : Bool) (t : Tracker) :
    Option Tracker :=
  let (pass, passme) := checkConntrackRatioPerIp limits t original
  if protocolFull limits t original.protonum then none
  else if !pass then none
  else if !passme && limits.nfConntrackMax ≠ 0 && t.count + 1 > limits.nfConntrackMax && !dropped then none
  else if !memory then none
  else
    let ct : Conn := ⟨original, reply⟩
    let t := { t with count := t.count + 1 }
    let t := t.countProtocol original.protonum
    some ({ t with live := t.live ++ [ct] }.increase limits.lan ct)

/-- `nf_conntrack_free` of the `j`-th connection. -/
def nfConntrackFree (limits : Limits) (j : Nat) (t : Tracker) : Option Tracker :=
  t.live[j]?.map fun ct =>
    let t := t.decrease limits.lan ct
    let t := t.uncountProtocol ct.original.protonum
    { t with live := t.live.eraseIdx j, count := t.count - 1 }

/-- The last part of `init_conntrack`: the callback of an expectation may change the reply tuple. -/
def expectConntrack (limits : Limits) (j : Nat) (redirected : Option Tuple) (t : Tracker) : Option Tracker :=
  t.live[j]?.map fun ct =>
    let t := t.decrease limits.lan ct
    let ct' : Conn := { ct with reply := redirected.getD ct.reply }
    { t with live := t.live.set j ct' }.increase limits.lan ct'

/-- `nf_ct_invert_tuple`, as far as it succeeds. -/
def Tuple.invert (tuple : Tuple) : Tuple := ⟨tuple.dst, tuple.src, tuple.protonum⟩

/-! ## Destination NAT -/

/-- `check_conntrack_ratio_in_dnat`; `none` for 0, which drops the packet. -/
def checkConntrackRatioInDnat (limits : Limits) (ct : Conn) (minIp : UInt32) (t : Tracker) : Option Tracker :=
  if !checkInternalSubnet limits.lan minIp then some t
  -- internal port forward
  else if checkInternalSubnet limits.lan ct.original.src then some t
  else
    let ipidx := ipidxOf limits.lan minIp
    if ipidx = lancpuIpidx ∨ ipidx = wancpuIpidx then some t
    else if limits.unlimited ∨ limits.belowRate (t.countPerIp ipidx) then
      some ({ t with countPerIp := raise t.countPerIp ipidx }.decrease limits.lan ct)
    else none

/-- A connection after `nf_nat_setup_info`. -/
def Conn.dnat (minIp : UInt32) (ct : Conn) : Conn := { ct with reply := { ct.reply with src := minIp } }

/-- `ipt_dnat_target` on the `j`-th connection. -/
def iptDnatTarget (limits : Limits) (j : Nat) (minIp : UInt32) (t : Tracker) : Option Tracker :=
  t.live[j]?.map fun ct =>
    match checkConntrackRatioInDnat limits ct minIp t with
    | some t => { t with live := t.live.set j (ct.dnat minIp) }
    | none => t

/-! ## Runs -/

inductive Event
  | alloc (original reply : Tuple) (dropped memory : Bool)
  | expect (j : Nat) (redirected : Option Tuple)
  | dnat (j : Nat) (minIp : UInt32)
  | free (j : Nat)
deriving DecidableEq

def Tracker.step (limits : Limits) (t : Tracker) : Event → Option Tracker
  | .alloc original reply dropped memory => some ((nfConntrackAlloc limits original reply dropped memory t).getD t)
  | .expect j redirected => expectConntrack limits j redirected t
  | .dnat j minIp => iptDnatTarget limits j minIp t
  | .free j => nfConntrackFree limits j t

end RouterApps.Conntrack
