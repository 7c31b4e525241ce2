/-
# Udhcpd.LgdacomServer -- the server of the LG Dacom build (serverpacket_lgdacom.c, leases_lgdacom.c)

This build has handlers of its own for DISCOVER and for the ACK of a REQUEST.  A client can
corrupt the server with either:

* a DISCOVER for an address that is free in the pool makes `sendOffer` release the
  client's lease without a look at whether it has one;
* `sendACK` copies the host name by the length of the option, up to 255, into 24 bytes;
* it prints the host name into a command line for the shell;
* it copies the host name as a string into the 24 bytes of the lease, although 24 bytes of
  a name fill the local array without a NUL.

`Fault` names the four.  `handleLgdacom` is the body of the loop of `main` with these
handlers; the rest of `main` is the one of `handle`.  Which bytes the
shell interprets outside quotes is a parameter, `special`.
-/
import RouterApps.CLib.Text
import RouterApps.Theory.Outcome
import RouterApps.Theory.Run
import RouterApps.Udhcpd.Lgdacom
import RouterApps.Udhcpd.Message

namespace RouterApps.Udhcpd

open CLib Theory Theory.Table List Option

/-! ## What can go wrong -/

inductive Fault where
  /-- `lease_expired(NULL)` -/
  | nullLease
  /-- `memcpy` behind the local `hostname` -/
  | localHostname
  /-- a byte of the message that the shell interprets, in this line -/
  | shell (line : List UInt8)
  /-- `strcpy` behind the `hostname` of a slot -/
  | slotHostname
deriving DecidableEq

abbrev Result := Outcome Fault

/-! ## Inputs -/

/-- What the outside decides during one call of `find_address`. -/
structure Search where
  arp : UInt32 → Bool
  clock : Readings
  uninitialised : UInt32
  elapsed : Nat

/-- What the calls out of the daemon answer, and what lies on the stack behind `hostname`. -/
structure DacomEnv extends Env where
  hw : Int32
  search : Bool → Search
  stack : List UInt8

/-- One turn's inputs. -/
structure DacomMessage where
  env : DacomEnv
  image : Image

/-- The tests of this build compare the first 24 bits of an address. -/
def dacomConfig (config : ServerConfig) : ServerConfig := { config with sysNetmask := 0xFFFFFF00 }

/-! ## Offers -/

/-- `find_address` on the server's table. -/
def dacomFindAddress (setup : Setup) (env : DacomEnv) (fuel : Nat) (checkExpired : Bool) (s : Server) :
    Result (UInt32 × Server) :=
  let search := env.search checkExpired
  Outcome.ofOption ((findAddressLgdacom setup env.localIp search.arp checkExpired env.hw search.clock
    search.uninitialised fuel s.leases).map fun found =>
      (found.1, { s with leases := found.2.leases, clock := s.clock + search.elapsed }))

/-- `find_address(0)`, then, if there is none, `find_address(1)`. -/
def dacomFindAnyAddress (setup : Setup) (env : DacomEnv) (fuel : Nat) (s : Server) : Result (UInt32 × Server) :=
  (dacomFindAddress setup env fuel false s).bind fun found =>
    if found.1 = 0 then dacomFindAddress setup env fuel true found.2 else .done found

/-- `lease->expires = time(0)` and `write_leases()`. -/
def releaseLease (setup : Setup) (packet : Packet) (s : Server) : Server :=
  (handleRelease packet s).dump setup.config

/-- The address `sendOffer` settles on (0 for none) and the lease time that goes with it so far. -/
def dacomOfferAddress (setup : Setup) (env : DacomEnv) (fuel : Nat) (packet : Packet) (s : Server) :
    Result (UInt32 × UInt32 × Server) :=
  let reserved := findStaticLeaseByChaddr packet.chaddr setup.static
  if reserved ≠ 0 then .done (reserved, setup.config.lease, s)
  else
    match packet.requested.filter (requestable setup s) with
    | some req =>
      match findLeaseByChaddr packet.chaddr s.leases with
      | none => .fault .nullLease
      | some lease =>
        .done (req, setup.config.lease, if leaseExpired s.time lease then s else releaseLease setup packet s)
    | none =>
      match findLeaseByChaddr packet.chaddr s.leases with
      | some lease =>
        let leaseTime := if leaseExpired s.time lease then setup.config.lease else lease.expires - s.time
        if (findStaticLeaseByYiaddr lease.yiaddr setup.static).isSome then
          (dacomFindAnyAddress setup env fuel (releaseLease setup packet s)).bind fun found =>
            .done (found.1, leaseTime, found.2)
        else .done (lease.yiaddr, leaseTime, s)
      | none =>
        -- the source looks for a static lease again here, and cannot find one
        (dacomFindAnyAddress setup env fuel s).bind fun found => .done (found.1, setup.config.lease, found.2)

/-- The rest of `sendOffer`: the slot, the lease time and the reply. -/
def dacomOffer (setup : Setup) (env : DacomEnv) (packet : Packet) (yiaddr leaseTime : UInt32) (s : Server) : Server :=
  if yiaddr = 0 then s
  else
    match s.addLease packet.chaddr yiaddr setup.config.offerTime noHostname with
    | (false, s) => s
    | (true, s) =>
      let leaseTime := offerLeaseTime setup.config packet leaseTime
      if onPoolNetwork (dacomConfig setup.config) yiaddr && !env.dhcpdOp then s
      else s.send env.toEnv (.offer packet.chaddr yiaddr
        (ipcloneOr (dacomConfig setup.config) env.toEnv packet yiaddr leaseTime) s.clock)

/-- `sendOffer`. -/
def dacomSendOffer (setup : Setup) (env : DacomEnv) (fuel : Nat) (packet : Packet) (s : Server) : Result Server :=
  (dacomOfferAddress setup env fuel packet s).bind fun offered =>
    .done (dacomOffer setup env packet offered.1 offered.2.1 offered.2.2)

/-! ## Acknowledgements -/

/-- The string at `hostname`: the bytes of the option, the zeros behind them, and what lies behind the
array. -/
def hostnameText (env : DacomEnv) (packet : Packet) : CString :=
  CString.ofBuffer (packet.hostName ++ List.replicate (hostnameLen - packet.hostName.length) 0 ++ env.stack)

/-- The bytes of the message that are part of that string. -/
def namePart (packet : Packet) : List UInt8 := packet.hostName.takeWhile (· ≠ 0)

/-- `"echo %s %d > /var/hostname"`. -/
def systemLine (hostname : CString) (optLen : Nat) : List UInt8 :=
  ascii ['e', 'c', 'h', 'o', ' '] ++ hostname.bytes ++ ascii [' '] ++ digits 10 optLen ++
    ascii [' ', '>', ' ', '/', 'v', 'a', 'r', '/', 'h', 'o', 's', 't', 'n', 'a', 'm', 'e']

/-- `add_lease` with a string of any length. -/
def Server.addLeaseText (s : Server) (chaddr : Chaddr) (yiaddr lease : UInt32) (hostname : CString) : Result Server :=
  let cleared := clearLease chaddr yiaddr s.leases
  match oldestExpiredLease s.time cleared with
  | none => .done { s with leases := cleared }
  | some oldest =>
    match strcpy hostnameLen hostname with
    | none => .fault .slotHostname
    | some hostname => .done { s with leases := cleared.set oldest ⟨chaddr, yiaddr, s.time + lease, hostname⟩ }

/-- `sendACK`. -/
def dacomSendACK (setup : Setup) (special : UInt8 → Bool) (env : DacomEnv) (packet : Packet) (yiaddr : UInt32)
    (s : Server) : Result Server :=
  let leaseTime := ipcloneOr (dacomConfig setup.config) env.toEnv packet yiaddr (ackLeaseTime setup.config packet)
  if env.sendOk then
    let s := s.emit (.ack packet.chaddr yiaddr leaseTime s.clock)
    if packet.hostName.length > hostnameLen then .fault .localHostname
    else if (namePart packet).any special then
      .fault (.shell (systemLine (hostnameText env packet) packet.hostName.length))
    else s.addLeaseText packet.chaddr yiaddr leaseTime (hostnameText env packet)
  else .done s

/-! ## The message loop -/

/-- What `main` does about a REQUEST. -/
inductive Answer where
  | ack (yiaddr : UInt32)
  | nak
  | drop (yiaddr : UInt32)
  | silent
deriving DecidableEq

def recordAnswer (setup : Setup) (env : Env) (packet : Packet) (lease : Lease) : Answer :=
  if ipcloneRefuses setup env packet then .nak
  else
    match packet.serverId with
    | some serverId =>
      if serverId = setup.config.server ∧ packet.requested = some lease.yiaddr then .ack lease.yiaddr else .silent
    | none =>
      match packet.requested with
      | some requested => if lease.yiaddr = requested then .ack lease.yiaddr else .nak
      | none => if lease.yiaddr = packet.ciaddr then .ack lease.yiaddr else .nak

def noRecordAnswer (setup : Setup) (packet : Packet) (s : Server) : Answer :=
  if packet.serverId.isSome then .silent
  else
    match packet.requested with
    | none => .nak
    | some requested =>
      let reserved := findStaticLeaseByChaddr packet.chaddr setup.static
      if reserved ≠ 0 ∧ reserved ≠ requested then .silent
      else
        match findLeaseByYiaddr requested s.leases with
        | some lease => if leaseExpired s.time lease then .drop requested else .nak
        | none =>
          if !setup.config.inPool requested then .nak
          else if (findStaticLeaseByYiaddr requested setup.static).isSome then .nak
          else .ack requested

def requestAnswer (setup : Setup) (env : Env) (packet : Packet) (s : Server) : Answer :=
  match findLeaseByChaddr packet.chaddr s.leases with
  | some lease => recordAnswer setup env packet lease
  | none => noRecordAnswer setup packet s

/-- The case of `main` for a REQUEST. -/
def dacomHandleRequest (setup : Setup) (special : UInt8 → Bool) (env : DacomEnv) (packet : Packet) (s : Server) :
    Result Server :=
  match requestAnswer setup env.toEnv packet s with
  | .ack yiaddr => dacomSendACK setup special env packet yiaddr s
  | .nak => .done (sendNAK env.toEnv packet s)
  | .drop yiaddr => .done (dropHolder yiaddr s)
  | .silent => .done s

/-- One turn of the loop of `main` in this build. -/
def handleLgdacom (setup : Setup) (fuel : Nat) (special : UInt8 → Bool) (message : DacomMessage) (s : Server) :
    Result Server :=
  let env := message.env
  let packet := Packet.ofImage message.image
  let s := s.receive env.toEnv
  if env.autoDetect then .done s
  else
    match packet.type with
    | none => .done s
    | some .discover => (dacomSendOffer setup env fuel packet s).bind fun s => .done (s.dump setup.config)
    | some .request => (dacomHandleRequest setup special env packet s).bind fun s => .done (s.dump setup.config)
    | some .decline => .done (handleDecline setup packet s)
    | some .release => .done ((handleRelease packet s).dump setup.config)
    | some .inform => .done (s.send env.toEnv (.inform packet.chaddr))
    | some .other => .done s

/-! ## Harmless messages -/

/-- The client has a reservation, or asks for no address that is free for it, or has a slot in the
table. -/
def DiscoverHarmless (setup : Setup) (packet : Packet) (s : Server) : Prop :=
  findStaticLeaseByChaddr packet.chaddr setup.static ≠ 0 ∨
    (∀ req, packet.requested = some req → requestable setup s req = false) ∨
    ∃ lease, findLeaseByChaddr packet.chaddr s.leases = some lease

/-- At most 24 bytes, nothing for the shell before the first NUL, and, unless it is shorter or has a
NUL, no slot to be copied into. -/
structure NameHarmless (special : UInt8 → Bool) (packet : Packet) (yiaddr : UInt32) (s : Server) : Prop where
  short : packet.hostName.length ≤ hostnameLen
  plain : ∀ b ∈ namePart packet, special b = false
  terminated : packet.hostName.length = hostnameLen → 0 ∉ packet.hostName →
    oldestExpiredLease s.time (clearLease packet.chaddr yiaddr s.leases) = none

structure DacomMessage.Harmless (setup : Setup) (special : UInt8 → Bool) (message : DacomMessage) (s : Server) :
    Prop where
  discover : message.env.autoDetect = false → (Packet.ofImage message.image).type = some .discover →
    DiscoverHarmless setup (Packet.ofImage message.image) (s.receive message.env.toEnv)
  request : message.env.autoDetect = false → (Packet.ofImage message.image).type = some .request →
    message.env.sendOk = true → ∀ yiaddr,
    requestAnswer setup message.env.toEnv (Packet.ofImage message.image) (s.receive message.env.toEnv) = .ack yiaddr →
    NameHarmless special (Packet.ofImage message.image) yiaddr (s.receive message.env.toEnv)

section

variable {setup : Setup} {special : UInt8 → Bool} {env : DacomEnv} {packet : Packet} {fuel : Nat} {s : Server}

theorem dacomFindAnyAddress_safe : (dacomFindAnyAddress setup env fuel s).Safe := by
  rw [dacomFindAnyAddress, Outcome.safe_bind]
  refine ⟨Outcome.safe_ofOption _, fun found _ => ?_⟩
  split
  · exact Outcome.safe_ofOption _
  · exact Outcome.safe_done _

/-- **DISCOVER.** An offer is safe exactly if the release has a lease to release. -/
theorem dacomSendOffer_safe_iff : (dacomSendOffer setup env fuel packet s).Safe ↔ DiscoverHarmless setup packet s := by
  rw [dacomSendOffer, Outcome.safe_bind_of_safe _ fun _ => Outcome.safe_done _, dacomOfferAddress, DiscoverHarmless]
  by_cases reserved : findStaticLeaseByChaddr packet.chaddr setup.static = 0
  · rw [if_neg (not_not.2 reserved)]
    cases wanted : packet.requested.filter (requestable setup s) with
    | some req =>
      obtain ⟨asked, free⟩ := filter_eq_some_iff.1 wanted
      have taken : ¬∀ req, packet.requested = some req → requestable setup s req = false := fun none => by
        rw [none req asked] at free
        cases free
      cases findLeaseByChaddr packet.chaddr s.leases <;> simp [reserved, taken]
    | none =>
      have notAsked : ∀ req, packet.requested = some req → requestable setup s req = false := fun req asked => by
        simpa using filter_eq_none_iff.1 wanted req asked
      have found s leaseTime : ((dacomFindAnyAddress setup env fuel s).bind fun found =>
          (.done (found.1, leaseTime, found.2) : Result (UInt32 × UInt32 × Server))).Safe :=
        (Outcome.safe_bind_of_safe _ fun _ => Outcome.safe_done _).2 dacomFindAnyAddress_safe
      refine iff_of_true ?_ (.inr (.inl notAsked))
      cases findLeaseByChaddr packet.chaddr s.leases with
      | none => exact found _ _
      | some lease =>
        dsimp only
        split
        · exact found _ _
        · exact Outcome.safe_done _
  · rw [if_pos reserved]
    exact iff_of_true (Outcome.safe_done _) (.inl reserved)

theorem addLeaseText_safe_iff {chaddr : Chaddr} {yiaddr lease : UInt32} {hostname : CString} :
    (s.addLeaseText chaddr yiaddr lease hostname).Safe ↔
      (hostnameLen ≤ hostname.bytes.length → oldestExpiredLease s.time (clearLease chaddr yiaddr s.leases) = none) := by
  simp only [Server.addLeaseText]
  cases oldestExpiredLease s.time (clearLease chaddr yiaddr s.leases) with
  | none => simp
  | some oldest =>
    by_cases fits : hostname.bytes.length < hostnameLen
    · simp [strcpy_eq_some fits, Nat.not_le.2 fits]
    · simp [strcpy_eq_none fits, Nat.not_lt.1 fits]

theorem hostnameText_long_iff (short : packet.hostName.length ≤ hostnameLen) :
    hostnameLen ≤ (hostnameText env packet).bytes.length ↔
      packet.hostName.length = hostnameLen ∧ 0 ∉ packet.hostName := by
  -- the array, and whether it has a NUL
  generalize buffer_eq : packet.hostName ++ List.replicate (hostnameLen - packet.hostName.length) 0 = buffer
  have size : buffer.length = hostnameLen := by
    rw [← buffer_eq, length_append, length_replicate]
    omega
  rw [hostnameText, buffer_eq, ← size, CString.length_le_ofBuffer_append_iff, size, ← buffer_eq, mem_append,
    mem_replicate, not_or]
  constructor
  · rintro ⟨noNul, noPadding⟩
    refine ⟨?_, noNul⟩
    by_contra other
    exact noPadding ⟨by omega, rfl⟩
  · rintro ⟨fills, noNul⟩
    exact ⟨noNul, fun padding => padding.1 (by omega)⟩

/-- **ACK.** An acknowledgement is safe exactly if it is not sent or its host name is harmless. -/
theorem dacomSendACK_safe_iff {yiaddr : UInt32} : (dacomSendACK setup special env packet yiaddr s).Safe ↔
    (env.sendOk = true → NameHarmless special packet yiaddr s) := by
  simp only [dacomSendACK]
  by_cases sent : env.sendOk = true
  · simp only [sent, if_true, forall_const]
    by_cases short : packet.hostName.length ≤ hostnameLen
    · rw [if_neg (by omega)]
      by_cases plain : ∀ b ∈ namePart packet, special b = false
      · rw [if_neg (by simpa using plain), addLeaseText_safe_iff, hostnameText_long_iff short, and_imp]
        exact ⟨fun terminated => ⟨short, plain, terminated⟩, NameHarmless.terminated⟩
      · rw [if_pos (by simpa using plain)]
        exact iff_of_false (Outcome.not_safe_fault _) fun harmless => plain harmless.plain
    · rw [if_pos (by omega)]
      exact iff_of_false (Outcome.not_safe_fault _) fun harmless => short harmless.short
  · simp [sent]

theorem dacomHandleRequest_safe_iff : (dacomHandleRequest setup special env packet s).Safe ↔
    (env.sendOk = true → ∀ yiaddr, requestAnswer setup env.toEnv packet s = .ack yiaddr →
      NameHarmless special packet yiaddr s) := by
  unfold dacomHandleRequest
  cases requestAnswer setup env.toEnv packet s with
  | ack yiaddr =>
    rw [dacomSendACK_safe_iff]
    exact ⟨fun harmless sent yiaddr' same => Answer.ack.inj same ▸ harmless sent,
      fun harmless sent => harmless sent yiaddr rfl⟩
  | nak | drop yiaddr | silent => simp

/-- **One message.** It is handled safely exactly if it is harmless in the state it meets. -/
theorem handleLgdacom_safe_iff {message : DacomMessage} :
    (handleLgdacom setup fuel special message s).Safe ↔ message.Harmless setup special s := by
  rw [handleLgdacom]
  by_cases detecting : message.env.autoDetect = true
  · rw [if_pos detecting]
    refine iff_of_true (Outcome.safe_done _) ⟨fun ready => ?_, fun ready => ?_⟩ <;> simp [detecting] at ready
  · have ready : message.env.autoDetect = false := by simpa using detecting
    rw [if_neg detecting]
    cases type : (Packet.ofImage message.image).type with
    | none => exact iff_of_true (Outcome.safe_done _) ⟨fun _ is => by simp [type] at is, fun _ is => by simp [type] at is⟩
    | some type' =>
      cases type' with
      | discover =>
        rw [Outcome.safe_bind_of_safe _ fun _ => Outcome.safe_done _, dacomSendOffer_safe_iff]
        exact ⟨fun harmless => ⟨fun _ _ => harmless, fun _ is => by simp [type] at is⟩,
          fun harmless => harmless.discover ready type⟩
      | request =>
        rw [Outcome.safe_bind_of_safe _ fun _ => Outcome.safe_done _, dacomHandleRequest_safe_iff]
        exact ⟨fun harmless => ⟨fun _ is => by simp [type] at is, fun _ _ => harmless⟩,
          fun harmless => harmless.request ready type⟩
      | decline | release | inform | other =>
        exact iff_of_true (Outcome.safe_done _)
          ⟨fun _ is => by simp [type] at is, fun _ is => by simp [type] at is⟩

end

/-! ## Every run -/

/-- The server after a message, if nothing went wrong. -/
def Server.stepLgdacom (setup : Setup) (fuel : Nat) (special : UInt8 → Bool) (s : Server) (message : DacomMessage) :
    Option Server := (handleLgdacom setup fuel special message s).result

/-- **No message corrupts the server** exactly if each message is harmless in the state that it
meets, from any state and over every list of messages. -/
theorem no_message_corrupts_iff (setup : Setup) (fuel : Nat) (special : UInt8 → Bool) (start : Server)
    (messages : List DacomMessage) : (∀ before message after s, messages = before ++ message :: after →
      replay (Server.stepLgdacom setup fuel special) before start = some s →
      ∀ fault, handleLgdacom setup fuel special message s ≠ .fault fault) ↔
    ∀ before message after s, messages = before ++ message :: after →
      replay (Server.stepLgdacom setup fuel special) before start = some s →
      message.Harmless setup special s := by
  refine forall_congr' fun before => forall_congr' fun message => forall_congr' fun after =>
    forall_congr' fun s => forall_congr' fun _ => forall_congr' fun _ => ?_
  exact handleLgdacom_safe_iff

/-! ## Messages that do -/

/-- Characters that the shell does not take for themselves unless they are quoted. -/
def shellSpecial (b : UInt8) : Bool :=
  (ascii ['|', '&', ';', '<', '>', '(', ')', '$', '\x60', '\\', '"', '\'', ' ', '\t', '\n']).contains b

namespace Sample

def search : Search := ⟨fun _ => false, ⟨0, fun _ => 0, fun _ => 0, fun _ => 0⟩, 0, 0⟩

def dacomEnv : DacomEnv := { env with hw := 0, search := fun _ => search, stack := [] }

/-- A message of the client 00:00:00:00:00:07 with these options. -/
def message (options : List UInt8) : DacomMessage :=
  ⟨dacomEnv, fun n => if n = 33 then 7 else if n < 240 then 0 else (options ++ [0xFF]).getD (n - 240) 0⟩

/-- The server just after start-up, without a lease file. -/
def fresh : Server := boot ⟨config, []⟩ 1000 []

/-- A REQUEST for 192.168.0.20 that names no server, with a host name. -/
def requestAs (name : List UInt8) : DacomMessage :=
  message ([0x35, 1, 3, 0x32, 4, 192, 168, 0, 20, 0x0c, UInt8.ofNat name.length] ++ name)

end Sample

open Sample in
/-- A DISCOVER for a free address, and REQUESTs with a host name of 25 bytes, with a command in it,
and of 24 bytes. -/
theorem messages_corrupt :
    handleLgdacom ⟨config, []⟩ 10 shellSpecial (message [0x35, 1, 1, 0x32, 4, 192, 168, 0, 20]) fresh =
      .fault .nullLease ∧
    handleLgdacom ⟨config, []⟩ 10 shellSpecial (requestAs (List.replicate 25 97)) fresh = .fault .localHostname ∧
    handleLgdacom ⟨config, []⟩ 10 shellSpecial (requestAs (ascii [';', 'r', 'e', 'b', 'o', 'o', 't'])) fresh =
      .fault (.shell (ascii ['e', 'c', 'h', 'o', ' ', ';', 'r', 'e', 'b', 'o', 'o', 't', ' ', '7', ' ', '>', ' ',
        '/', 'v', 'a', 'r', '/', 'h', 'o', 's', 't', 'n', 'a', 'm', 'e'])) ∧
    handleLgdacom ⟨config, []⟩ 10 shellSpecial (requestAs (List.replicate 24 97)) fresh = .fault .slotHostname := by
  decide +kernel

end RouterApps.Udhcpd
