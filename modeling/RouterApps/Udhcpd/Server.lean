/-
# Udhcpd.Server -- handling one message (dhcpd.c, serverpacket.c, leases.c)

The daemon takes one message at a time and answers it before it takes the next.
`handle` is the body of that loop.  What the outside decides while a message is
handled is data of the model:

* `Packet` is what the handlers read of the message.  The option fields are what
  `get_option` finds; words stay in network order until the source swaps them.
* `Env` is what the calls out of the daemon answer: how long the message was
  waited for, the ARP probes, the interface address, the twin-IP settings (the
  product is built with `USE_REAL_IPCLONE`; with `sysNetmask = 0`, no clone and
  `dhcpdOp = true` the code is the one built without it), and whether the reply
  could be sent.

Time passes between messages and inside `arpping`, which waits for a reply.
`clock` is the time in seconds, unbounded, and `time(0)` is its 32-bit reading.

`find_address` counts `addr` up in 32 bits, so a pool that ends at
255.255.255.255 makes it loop for ever; its loop takes a bound, and running out of
it is `none`.

`out` records what the handling of the message sends, and the addresses it takes
out of circulation (the log line "reserving it for %ld seconds" of `check_ip`, and
the declined address).
-/
import RouterApps.Udhcpd.Files

namespace RouterApps.Udhcpd

open CLib Theory.Table

/-! ## State and inputs -/

/-- What happens while a message is handled. -/
inductive Event where
  | offer (chaddr : Chaddr) (yiaddr leaseTime : UInt32) (clock : Nat)
  | ack (chaddr : Chaddr) (yiaddr leaseTime : UInt32) (clock : Nat)
  | nak (chaddr : Chaddr)
  | inform (chaddr : Chaddr)
  | reserved (yiaddr expires : UInt32)
deriving DecidableEq

/-- The lease book: the table, the time, and what the current message caused. -/
structure Book where
  leases : List Lease
  clock : Nat
  out : List Event
deriving DecidableEq

/-- One call of `arpping`: whether somebody answers, and how long it takes. -/
structure Probe where
  used : Bool
  elapsed : Nat
deriving DecidableEq

/-- The daemon's state: the book, the answers the pending probes will get, and the
lease file. -/
structure Server extends Book where
  probes : List Probe
  leaseFile : List UInt8
deriving DecidableEq

/-- What does not change while the daemon runs: configuration and reservations. -/
structure Setup where
  config : ServerConfig
  static : List StaticLease

/-- The DHCP message types `main` tells apart. -/
inductive MessageType where
  | discover
  | request
  | decline
  | release
  | inform
  | other
deriving DecidableEq

def MessageType.ofByte (state : UInt8) : MessageType :=
  if state = 1 then .discover
  else if state = 3 then .request
  else if state = 4 then .decline
  else if state = 7 then .release
  else if state = 8 then .inform
  else .other

/-- What the handlers read of a `struct dhcpMessage`. -/
structure Packet where
  chaddr : Chaddr
  ciaddr : UInt32
  state : Option UInt8
  requested : Option UInt32
  serverId : Option UInt32
  leaseTime : Option UInt32
  hostName : List UInt8

/-- What the calls out of the daemon answer while a message is handled. -/
structure Env where
  elapsed : Nat
  probes : List Probe
  localIp : UInt32
  ipcloneLeaseTime : Chaddr → Option UInt32
  dhcpdOp : Bool
  autoDetect : Bool
  sendOk : Bool
  unpermitted : CString → Bool

def Packet.type (packet : Packet) : Option MessageType := packet.state.map MessageType.ofByte

/-- `time(0)`. -/
def Book.time (b : Book) : UInt32 := UInt32.ofNat b.clock

def Book.emit (b : Book) (event : Event) : Book := { b with out := b.out ++ [event] }

/-- `add_lease` on the daemon's table; the first component says whether it
returned a slot. -/
def Book.addLease (b : Book) (chaddr : Chaddr) (yiaddr lease : UInt32)
    (hostname : CharArray hostnameLen) : Bool × Book :=
  let added := Udhcpd.addLease b.time chaddr yiaddr lease hostname b.leases
  (added.1.isSome, { b with leases := added.2 })

/-- Keep an address that somebody else uses out of circulation. -/
def Book.conflict (b : Book) (config : ServerConfig) (addr : UInt32) : Book :=
  let (added, b') := b.addLease blankChaddr addr config.conflictTime noHostname
  if added then b'.emit (.reserved addr (b.time + config.conflictTime)) else b'

/-- A change of the first slot that meets `p`. -/
def Book.update (b : Book) (p : Lease → Bool) (f : Lease → Lease) : Book :=
  { b with leases := updateFirst p f b.leases }

def Server.emit (s : Server) (event : Event) : Server := { s with toBook := s.toBook.emit event }

/-- Send a reply; nothing leaves when `send_packet` fails. -/
def Server.send (s : Server) (env : Env) (event : Event) : Server :=
  if env.sendOk then s.emit event else s

def Server.addLease (s : Server) (chaddr : Chaddr) (yiaddr lease : UInt32)
    (hostname : CharArray hostnameLen) : Bool × Server :=
  let (added, book) := s.toBook.addLease chaddr yiaddr lease hostname
  (added, { s with toBook := book })

/-! ## Looking for an address -/

/-- `arpping(...) == 0`: somebody uses the address. -/
def Server.arpping (s : Server) : Bool × Server :=
  match s.probes with
  | [] => (false, s)
  | probe :: probes => (probe.used, { s with probes := probes, clock := s.clock + probe.elapsed })

/-- Check if an IP is taken; if it is, add it to the lease table. -/
def checkIp (setup : Setup) (addr : UInt32) (s : Server) : Bool × Server :=
  let (used, s) := s.arpping
  if used then (true, { s with toBook := s.toBook.conflict setup.config addr }) else (false, s)

/-- The address is not in the table, or it is expired and expired leases count. -/
def assignable (checkExpired : Bool) (addr : UInt32) (s : Server) : Bool :=
  match findLeaseByYiaddr addr s.leases with
  | none => true
  | some lease => checkExpired && leaseExpired s.time lease

/-- The loop of `find_address`; `addr` is in host order. -/
def findAddressFrom (setup : Setup) (env : Env) (checkExpired : Bool) :
    Nat → UInt32 → Server → Option (UInt32 × Server)
  | 0, _, _ => none
  | fuel + 1, addr, s =>
    if addr ≤ ntohl setup.config.stop then
      if addr = ntohl env.localIp then findAddressFrom setup env checkExpired fuel (addr + 1) s
      else if addr &&& 0xFF = 0 then findAddressFrom setup env checkExpired fuel (addr + 1) s
      else if addr &&& 0xFF = 0xFF then findAddressFrom setup env checkExpired fuel (addr + 1) s
      else if (findStaticLeaseByYiaddr (htonl addr) setup.static).isSome then
        findAddressFrom setup env checkExpired fuel (addr + 1) s
      else if assignable checkExpired (htonl addr) s then
        match checkIp setup (htonl addr) s with
        | (true, s) => findAddressFrom setup env checkExpired fuel (addr + 1) s
        | (false, s) => some (htonl addr, s)
      else findAddressFrom setup env checkExpired fuel (addr + 1) s
    else some (0, s)

/-- If `checkExpired` is true, expired leases count as assignable.  The answer 0 means there is
none. -/
def findAddress (setup : Setup) (env : Env) (fuel : Nat) (checkExpired : Bool) (s : Server) :
    Option (UInt32 × Server) :=
  findAddressFrom setup env checkExpired fuel (ntohl setup.config.start) s

/-- `find_address(0)`, then, if there is none, `find_address(1)`. -/
def findAnyAddress (setup : Setup) (env : Env) (fuel : Nat) (s : Server) :
    Option (UInt32 × Server) := do
  let (yiaddr, s) ← findAddress setup env fuel false s
  if yiaddr = 0 then findAddress setup env fuel true s else some (yiaddr, s)

/-! ## Offers -/

/-- A requested address in the pool that has a static lease, or no slot, or an expired one. -/
def requestable (setup : Setup) (s : Server) (req : UInt32) : Bool :=
  setup.config.inPool req && ((findStaticLeaseByYiaddr req setup.static).isSome || assignable true req s)

/-- The address `sendOffer` settles on (0 for none) and the lease time that goes
with it so far. -/
def offerAddress (setup : Setup) (env : Env) (fuel : Nat) (packet : Packet) (s : Server) :
    Option (UInt32 × UInt32 × Server) :=
  let reserved := findStaticLeaseByChaddr packet.chaddr setup.static
  if reserved ≠ 0 then some (reserved, setup.config.lease, s)
  else
    match findLeaseByChaddr packet.chaddr s.leases with
    | some lease => do
      let leaseTime :=
        if leaseExpired s.time lease then setup.config.lease else lease.expires - s.time
      if (findStaticLeaseByYiaddr lease.yiaddr setup.static).isSome then
        let (yiaddr, s) ← findAnyAddress setup env fuel s
        some (yiaddr, leaseTime, s)
      else some (lease.yiaddr, leaseTime, s)
    | none =>
      match packet.requested.filter (requestable setup s) with
      | some req =>
        match checkIp setup req s with
        | (true, s) => do
          let (yiaddr, s) ← findAddress setup env fuel false s
          -- the second search runs when the first one found something
          if yiaddr ≠ 0 then
            let (yiaddr, s) ← findAddress setup env fuel true s
            some (yiaddr, setup.config.lease, s)
          else some (0, setup.config.lease, s)
        | (false, s) => some (req, setup.config.lease, s)
      | none => do
        -- the source looks for a static lease again here, and cannot find one
        let (yiaddr, s) ← findAnyAddress setup env fuel s
        some (yiaddr, setup.config.lease, s)

def onPoolNetwork (config : ServerConfig) (yiaddr : UInt32) : Bool :=
  htonl yiaddr &&& config.sysNetmask = htonl config.start &&& config.sysNetmask

/-- What the client asks for, up to the maximum, but the maximum if it is less than the minimum. -/
def offerLeaseTime (config : ServerConfig) (packet : Packet) (leaseTime : UInt32) : UInt32 :=
  let leaseTime :=
    match packet.leaseTime with
    | some asked => if ntohl asked > config.lease then config.lease else ntohl asked
    | none => leaseTime
  if leaseTime < config.minLease then config.lease else leaseTime

/-- The lease time of a twin-IP client is that of its WAN link. -/
def ipcloneOr (config : ServerConfig) (env : Env) (packet : Packet) (yiaddr leaseTime : UInt32) : UInt32 :=
  if onPoolNetwork config yiaddr then leaseTime
  else (env.ipcloneLeaseTime packet.chaddr).getD leaseTime

def sendOffer (setup : Setup) (env : Env) (fuel : Nat) (packet : Packet) (s : Server) :
    Option Server := do
  let (yiaddr, leaseTime, s) ← offerAddress setup env fuel packet s
  if yiaddr = 0 then some s
  else
    match s.addLease packet.chaddr yiaddr setup.config.offerTime noHostname with
    | (false, s) => some s
    | (true, s) =>
      let leaseTime := offerLeaseTime setup.config packet leaseTime
      -- with the DHCP service switched off only twin-IP clients get an offer
      if onPoolNetwork setup.config yiaddr && !env.dhcpdOp then some s
      else some (s.send env (.offer packet.chaddr yiaddr (ipcloneOr setup.config env packet yiaddr leaseTime) s.clock))

/-! ## Answers to a request -/

def ackLeaseTime (config : ServerConfig) (packet : Packet) : UInt32 :=
  match packet.leaseTime with
  | some asked =>
    if ntohl asked > config.lease then config.lease
    else if ntohl asked < config.minLease then config.lease
    else ntohl asked
  | none => config.lease

/-- The host name an ACK stores. -/
def ackHostname (env : Env) (packet : Packet) : CharArray hostnameLen :=
  let hostname := hostnameOfField packet.hostName
  if env.unpermitted hostname.toCString then noHostname else hostname

/-- Send a DHCP ACK; the table is updated after the packet has left. -/
def sendACK (setup : Setup) (env : Env) (packet : Packet) (yiaddr : UInt32) (s : Server) : Server :=
  let leaseTime := ipcloneOr setup.config env packet yiaddr (ackLeaseTime setup.config packet)
  if env.sendOk then
    ((s.emit (.ack packet.chaddr yiaddr leaseTime s.clock)).addLease packet.chaddr yiaddr leaseTime
      (ackHostname env packet)).2
  else s

def sendNAK (env : Env) (packet : Packet) (s : Server) : Server :=
  s.send env (.nak packet.chaddr)

/-- A clone asks for a local address, or a client that is no clone for one that is not local. -/
def ipcloneRefuses (setup : Setup) (env : Env) (packet : Packet) : Bool :=
  match packet.requested with
  | some requested =>
    if (env.ipcloneLeaseTime packet.chaddr).isSome then onPoolNetwork setup.config requested
    else !onPoolNetwork setup.config requested
  | none => false

/-- A REQUEST of a client that has a slot in the table. -/
def requestRecord (setup : Setup) (env : Env) (packet : Packet) (lease : Lease) (s : Server) : Server :=
  if ipcloneRefuses setup env packet then sendNAK env packet s
  else
    match packet.serverId with
    | some serverId =>
      -- SELECTING
      if serverId = setup.config.server ∧ packet.requested = some lease.yiaddr then
        sendACK setup env packet lease.yiaddr s
      else s
    | none =>
      match packet.requested with
      | some requested =>
        -- INIT-REBOOT
        if lease.yiaddr = requested then sendACK setup env packet lease.yiaddr s
        else sendNAK env packet s
      | none =>
        -- RENEWING or REBINDING
        if lease.yiaddr = packet.ciaddr then sendACK setup env packet lease.yiaddr s
        else sendNAK env packet s

/-- `memset(lease->chaddr, 0, 16)` on the slot with address `yiaddr`. -/
def dropHolder (yiaddr : UInt32) (s : Server) : Server :=
  { s with
    toBook := s.toBook.update (hasYiaddr yiaddr) fun l => { l with chaddr := blankChaddr } }

def requestNoRecord (setup : Setup) (env : Env) (packet : Packet) (s : Server) : Server :=
  if packet.serverId.isSome then s
  else
    match packet.requested with
    | none => sendNAK env packet s
    | some requested =>
      let reserved := findStaticLeaseByChaddr packet.chaddr setup.static
      if reserved ≠ 0 ∧ reserved ≠ requested then s
      else
        match findLeaseByYiaddr requested s.leases with
        | some lease =>
          -- probably best if we drop this lease
          if leaseExpired s.time lease then dropHolder requested s
          -- make some contention for this address
          else sendNAK env packet s
        | none =>
          if !setup.config.inPool requested then sendNAK env packet s
          else if (findStaticLeaseByYiaddr requested setup.static).isSome then sendNAK env packet s
          else sendACK setup env packet requested s

/-! ## The message loop -/

/-- `write_leases()` at the end of a case. -/
def Server.dump (s : Server) (config : ServerConfig) : Server :=
  { s with leaseFile := writeLeases config s.time s.leases }

def handleRequest (setup : Setup) (env : Env) (packet : Packet) (s : Server) : Server :=
  match findLeaseByChaddr packet.chaddr s.leases with
  | some lease => requestRecord setup env packet lease s
  | none => requestNoRecord setup env packet s

/-- The slot of the client loses its hardware address and is kept for `decline_time`. -/
def handleDecline (setup : Setup) (packet : Packet) (s : Server) : Server :=
  match findLeaseByChaddr packet.chaddr s.leases with
  | some lease =>
    let expires := s.time + setup.config.declineTime
    { s with
      toBook := (s.toBook.emit (.reserved lease.yiaddr expires)).update (hasChaddr packet.chaddr)
        fun l => { l with chaddr := blankChaddr, expires := expires } }
  | none => s

def handleRelease (packet : Packet) (s : Server) : Server :=
  { s with
    toBook := s.toBook.update (hasChaddr packet.chaddr) fun l => { l with expires := s.time } }

/-- The state when a message has arrived. -/
def Server.receive (s : Server) (env : Env) : Server :=
  { s with clock := s.clock + env.elapsed, probes := env.probes, out := [] }

/-- One turn of the loop of `main`: a message arrives and is answered. -/
def handle (setup : Setup) (fuel : Nat) (env : Env) (packet : Packet) (s : Server) : Option Server :=
  let s := s.receive env
  if env.autoDetect then some s
  else
    match packet.type with
    | none => some s
    | some .discover => (sendOffer setup env fuel packet s).map (·.dump setup.config)
    | some .request => some ((handleRequest setup env packet s).dump setup.config)
    | some .decline => some (handleDecline setup packet s)
    | some .release => some ((handleRelease packet s).dump setup.config)
    | some .inform => some (s.send env (.inform packet.chaddr))
    | some .other => some s

/-- One turn's inputs. -/
structure Message where
  env : Env
  packet : Packet

/-- The loop of `main` over a sequence of messages. -/
def serve (setup : Setup) (fuel : Nat) : List Message → Server → Option Server
  | [], s => some s
  | m :: ms, s => do
    let s ← handle setup fuel m.env m.packet s
    serve setup fuel ms s

/-- The daemon after start-up at time `clock` with the given lease file. -/
def boot (setup : Setup) (clock : Nat) (file : List UInt8) : Server :=
  { leases := initialLeases setup.config (UInt32.ofNat clock) file
    clock := clock
    out := []
    probes := []
    leaseFile := file }

/-! ## A small network -/

namespace Sample

/-- 192.168.0.`d`. -/
def ip (d : UInt8) : UInt32 := leWord [192, 168, 0, d]

/-- The hardware address 00:00:00:00:00:`n`. -/
def mac (n : UInt8) : Chaddr := ⟨[0, 0, 0, 0, 0, n, 0, 0, 0, 0, 0, 0, 0, 0, 0, 0], rfl⟩

/-- Two addresses, .20 and .21, and a slot for each. -/
def config : ServerConfig :=
  { server := ip 1, start := ip 20, stop := ip 21, lease := 7200, maxLeases := 2
    remaining := true, declineTime := 3600, conflictTime := 3600, offerTime := 60
    minLease := 60, maxStatic := 2, sysNetmask := 0xFFFFFF00 }

/-- One second after the last message; nobody answers a probe, replies leave. -/
def env : Env :=
  { elapsed := 1, probes := [], localIp := ip 1, ipcloneLeaseTime := fun _ => none
    dhcpdOp := true, autoDetect := false, sendOk := true, unpermitted := fun _ => false }

def discover (chaddr : Chaddr) (requested : Option UInt32) : Message :=
  ⟨env, ⟨chaddr, 0, some 1, requested, none, none, []⟩⟩

/-- A REQUEST that names no server. -/
def request (chaddr : Chaddr) (requested : UInt32) : Message :=
  ⟨env, ⟨chaddr, 0, some 3, some requested, none, none, []⟩⟩

/-- A REQUEST that renews the address in `ciaddr`. -/
def renew (chaddr : Chaddr) (ciaddr : UInt32) : Message :=
  ⟨env, ⟨chaddr, ciaddr, some 3, none, none, none, []⟩⟩

def decline (chaddr : Chaddr) : Message :=
  ⟨env, ⟨chaddr, 0, some 4, none, none, none, []⟩⟩

/-- The same message, `d` seconds after the last one. -/
def after (d : Nat) (m : Message) : Message := { m with env := { m.env with elapsed := d } }

def answered (m : Message) : Message := { m with env := { m.env with probes := [⟨true, 2⟩] } }

end Sample

end RouterApps.Udhcpd
