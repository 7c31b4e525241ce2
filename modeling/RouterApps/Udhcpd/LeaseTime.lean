/-
# Udhcpd.LeaseTime -- from the configuration file to the slot of a lease

`read_config` sets the defaults and then reads the file line by line.  `main` takes the lease time
from the options that were read: any 32-bit number, `-1` and too large numbers included
(`configuredLease_eq`: the first accepted `option lease` line counts).

`sendACK` grants at most that time, and `add_lease` stores the 32-bit sum of the time and the
granted one.  The slot is live, and expires when it should, exactly if the sum does not wrap around.
With times below 2^31 that is sure exactly up to a lease time of 2^31
(`granted_lease_live_iff`); with more, a lease can have expired when it is recorded
(`lease_expired_at_once`).
-/
import RouterApps.Udhcpd.Server
import RouterApps.Udhcpd.Options

namespace RouterApps.Udhcpd

open CLib List Option CString

/-! ## The configuration file -/

/-- The keywords whose variables the model has. -/
inductive Keyword where
  | start | stop | option | opt | maxLeases | remaining | declineTime | conflictTime | offerTime | minLease | maxStatic
deriving DecidableEq

/-- The keywords in the order of the table. -/
def keywords : List Keyword :=
  [.start, .stop, .option, .opt, .maxLeases, .remaining, .declineTime, .conflictTime, .offerTime, .minLease, .maxStatic]

def Keyword.keyword : Keyword → CString
  | .start => ofBuffer (ascii ['s', 't', 'a', 'r', 't'])
  | .stop => ofBuffer (ascii ['e', 'n', 'd'])
  | .option => ofBuffer (ascii ['o', 'p', 't', 'i', 'o', 'n'])
  | .opt => ofBuffer (ascii ['o', 'p', 't'])
  | .maxLeases => ofBuffer (ascii ['m', 'a', 'x', '_', 'l', 'e', 'a', 's', 'e', 's'])
  | .remaining => ofBuffer (ascii ['r', 'e', 'm', 'a', 'i', 'n', 'i', 'n', 'g'])
  | .declineTime => ofBuffer (ascii ['d', 'e', 'c', 'l', 'i', 'n', 'e', '_', 't', 'i', 'm', 'e'])
  | .conflictTime => ofBuffer (ascii ['c', 'o', 'n', 'f', 'l', 'i', 'c', 't', '_', 't', 'i', 'm', 'e'])
  | .offerTime => ofBuffer (ascii ['o', 'f', 'f', 'e', 'r', '_', 't', 'i', 'm', 'e'])
  | .minLease => ofBuffer (ascii ['m', 'i', 'n', '_', 'l', 'e', 'a', 's', 'e'])
  | .maxStatic => ofBuffer (ascii ['m', 'a', 'x', '_', 's', 't', 'a', 't', 'i', 'c'])

/-- The default text of a keyword; `defaultMaxLease` is `DEFAULT_MAX_LEASE_STR`, which depends on the build. -/
def Keyword.default (defaultMaxLease : CString) : Keyword → CString
  | .start => (inetNtoa (leWord [192, 168, 0, 20])).toCString
  | .stop => (inetNtoa (leWord [192, 168, 0, 254])).toCString
  | .option => empty
  | .opt => empty
  | .maxLeases => defaultMaxLease
  | .remaining => ofBuffer (ascii ['y', 'e', 's'])
  | .declineTime => ofBuffer (ascii ['3', '6', '0', '0'])
  | .conflictTime => ofBuffer (ascii ['3', '6', '0', '0'])
  | .offerTime => ofBuffer (ascii ['6', '0'])
  | .minLease => ofBuffer (ascii ['6', '0'])
  | .maxStatic => ofBuffer (ascii ['2', '0', '0'])

/-- What a configuration file sets. -/
structure Configured where
  config : ServerConfig
  options : List OptionSet

/-- `memset` of `server_config`. -/
def Configured.zero : Configured := ⟨⟨0, 0, 0, 0, 0, false, 0, 0, 0, 0, 0, 0⟩, []⟩

/-- `read_ip` into a variable. -/
def storeIp (resolve : CString → Option UInt32) (line : CString) (c : Configured) (set : UInt32 → ServerConfig) :
    Bool × Configured :=
  match readIp resolve line with
  | some addr => (true, { c with config := set addr })
  | none => (false, c)

/-- `read_u32` stores what it can read, also if it fails. -/
def storeU32 (line : CString) (c : Configured) (set : UInt32 → ServerConfig) : Bool × Configured :=
  ((strtoul line).2 = [], { c with config := set (strtoul line).1 })

def Keyword.handle (resolve : CString → Option UInt32) (keyword : Keyword) (line : CString) (c : Configured) :
    Bool × Configured :=
  match keyword with
  | .start => storeIp resolve line c fun n => { c.config with start := n }
  | .stop => storeIp resolve line c fun n => { c.config with stop := n }
  | .option | .opt => ((readOpt resolve line c.options).1, { c with options := (readOpt resolve line c.options).2 })
  | .maxLeases => storeU32 line c fun n => { c.config with maxLeases := n.toNat }
  | .remaining =>
    match readYn line with
    | some b => (true, { c with config := { c.config with remaining := b } })
    | none => (false, c)
  | .declineTime => storeU32 line c fun n => { c.config with declineTime := n }
  | .conflictTime => storeU32 line c fun n => { c.config with conflictTime := n }
  | .offerTime => storeU32 line c fun n => { c.config with offerTime := n }
  | .minLease => storeU32 line c fun n => { c.config with minLease := n }
  | .maxStatic => storeU32 line c fun n => { c.config with maxStatic := n.toNat }

/-- The keyword of a line and its value, without comment and white space around them. -/
def splitLine (buffer : CString) : Option (CString × CString) :=
  let text := (buffer.cutAt lf).cutAt 35
  let token := text.bytes.dropWhile (· ∈ [32, 9])
  let line := token.dropWhile (· ∉ [32, 9, 61])
  if token = [] ∨ line = [] then none
  else some (ofBuffer (token.takeWhile (· ∉ [32, 9, 61])),
    ofBuffer ((line.tail.dropWhile (· ∈ [32, 9, 61])).reverse.dropWhile isSpace).reverse)

/-- One keyword of the table against one line: a value that cannot be read is replaced by the default. -/
def tryKeyword (resolve : CString → Option UInt32) (defaultMaxLease token line : CString) (c : Configured)
    (keyword : Keyword) : Configured :=
  if sameLetters token keyword.keyword then
    match keyword.handle resolve line c with
    | (true, c) => c
    | (false, c) => (keyword.handle resolve (keyword.default defaultMaxLease) c).2
  else c

/-- The body of the loop over the lines. -/
def readLine (resolve : CString → Option UInt32) (defaultMaxLease : CString) (c : Configured) (buffer : List UInt8) :
    Configured :=
  match splitLine (ofBuffer buffer) with
  | some (token, line) => keywords.foldl (tryKeyword resolve defaultMaxLease token line) c
  | none => c

def setDefault (resolve : CString → Option UInt32) (defaultMaxLease : CString) (c : Configured) (keyword : Keyword) :
    Configured :=
  if keyword.default defaultMaxLease = empty then c
  else (keyword.handle resolve (keyword.default defaultMaxLease) c).2

def readDefaults (resolve : CString → Option UInt32) (defaultMaxLease : CString) : Configured :=
  keywords.foldl (setDefault resolve defaultMaxLease) Configured.zero

/-- `read_config`; `none` for a file that cannot be opened. -/
def readConfig (resolve : CString → Option UInt32) (defaultMaxLease : CString) (file : Option (List UInt8)) :
    Configured :=
  match file with
  | some file => (fgetsAll 80 file).foldl (readLine resolve defaultMaxLease) (readDefaults resolve defaultMaxLease)
  | none => readDefaults resolve defaultMaxLease

/-- `LEASE_TIME`: ten days. -/
def defaultLeaseTime : UInt32 := 864000

/-- The lease time that `main` takes from the options. -/
def configuredLease (optList : List OptionSet) : UInt32 :=
  match findOption dhcpLeaseTime optList with
  | some option => ntohl (leWord option.data)
  | none => defaultLeaseTime

/-- The configuration when the server starts; address and netmask are those of the interface. -/
def startConfig (resolve : CString → Option UInt32) (defaultMaxLease : CString) (server sysNetmask : UInt32)
    (file : Option (List UInt8)) : ServerConfig :=
  let c := readConfig resolve defaultMaxLease file
  { c.config with server := server, sysNetmask := sysNetmask, lease := configuredLease c.options }

/-! ## The lease time of a file -/

/-- The lease time that a line of the file sets, if it is accepted. -/
def lineLease (buffer : List UInt8) : Option UInt32 :=
  (splitLine (ofBuffer buffer)).bind fun found =>
    if sameLetters found.1 Keyword.option.keyword || sameLetters found.1 Keyword.opt.keyword then leaseValue found.2
    else none

/-- The first accepted lease time of a file. -/
def fileLease (file : Option (List UInt8)) : Option UInt32 := (fgetsAll 80 (file.getD [])).findSome? lineLease

section

variable (resolve : CString → Option UInt32) (defaultMaxLease : CString)

variable {keyword : Keyword}

theorem handle_options (other : keyword ≠ .option ∧ keyword ≠ .opt) (line : CString)
    (c : Configured) : (keyword.handle resolve line c).2.options = c.options := by
  cases keyword with
  | option => exact absurd rfl other.1
  | opt => exact absurd rfl other.2
  | start | stop =>
    simp only [Keyword.handle, storeIp]
    split <;> rfl
  | remaining =>
    simp only [Keyword.handle]
    split <;> rfl
  | maxLeases | declineTime | conflictTime | offerTime | minLease | maxStatic => rfl

variable (c : Configured)

theorem setDefault_options (keyword : Keyword) :
    (setDefault resolve defaultMaxLease c keyword).options = c.options := by
  unfold setDefault
  split
  · rfl
  · rename_i text
    refine handle_options resolve ⟨?_, ?_⟩ _ c
    all_goals
      rintro rfl
      exact text rfl

theorem tryKeyword_options (other : keyword ≠ .option ∧ keyword ≠ .opt) (token line : CString)
    (c : Configured) : (tryKeyword resolve defaultMaxLease token line c keyword).options = c.options := by
  unfold tryKeyword
  split
  · have read := handle_options resolve other line c
    split <;> rename_i handled <;> rw [handled] at read
    · exact read
    · exact (handle_options resolve other _ _).trans read
  · rfl

/-- A failed `option` line is followed by an attempt to read the empty default, which does nothing. -/
theorem tryKeyword_option (reads : keyword = .option ∨ keyword = .opt) (token line : CString) (c : Configured) :
    (tryKeyword resolve defaultMaxLease token line c keyword).options =
      if sameLetters token keyword.keyword then (readOpt resolve line c.options).2 else c.options := by
  have nothing : ∀ optList, readOpt resolve empty optList = (false, optList) := fun _ => rfl
  unfold tryKeyword
  split
  · rcases read : readOpt resolve line c.options with ⟨_ | _, optList⟩ <;> rcases reads with rfl | rfl <;>
      simp only [Keyword.handle, Keyword.default, read, nothing]
  · rfl

theorem findOption_tryKeyword (reads : keyword = .option ∨ keyword = .opt) (token line : CString) (c : Configured) :
    findOption dhcpLeaseTime (tryKeyword resolve defaultMaxLease token line c keyword).options =
      (findOption dhcpLeaseTime c.options).or
        ((if sameLetters token keyword.keyword then leaseValue line else none).map fun value =>
          ⟨dhcpLeaseTime, leBytes (htonl value)⟩) := by
  rw [tryKeyword_option resolve defaultMaxLease reads]
  split
  · exact findOption_readOpt resolve line c.options
  · simp

theorem findOption_readLine (buffer : List UInt8) :
    findOption dhcpLeaseTime (readLine resolve defaultMaxLease c buffer).options =
      (findOption dhcpLeaseTime c.options).or
        ((lineLease buffer).map fun value => ⟨dhcpLeaseTime, leBytes (htonl value)⟩) := by
  unfold readLine lineLease
  rcases splitLine (ofBuffer buffer) with _ | ⟨token, line⟩
  · simp
  · simp only [keywords, foldl_cons, foldl_nil]
    repeat rw [tryKeyword_options resolve defaultMaxLease ⟨by decide, by decide⟩]
    rw [findOption_tryKeyword resolve defaultMaxLease (.inr rfl),
      findOption_tryKeyword resolve defaultMaxLease (.inl rfl)]
    repeat rw [tryKeyword_options resolve defaultMaxLease ⟨by decide, by decide⟩]
    by_cases isOption : sameLetters token Keyword.option.keyword
    · by_cases isOpt : sameLetters token Keyword.opt.keyword
      · rcases findOption dhcpLeaseTime c.options with _ | found <;> simp [isOption, isOpt]
      · simp [isOpt]
    · simp [isOption]

theorem findOption_readLines (lines : List (List UInt8)) :
    findOption dhcpLeaseTime (lines.foldl (readLine resolve defaultMaxLease) c).options =
      (findOption dhcpLeaseTime c.options).or
        ((lines.findSome? lineLease).map fun value => ⟨dhcpLeaseTime, leBytes (htonl value)⟩) := by
  induction lines generalizing c with
  | nil => simp
  | cons line lines ih =>
    rw [foldl_cons, ih, findOption_readLine, findSome?_cons]
    rcases lineLease line with _ | value
    · simp
    · rcases findOption dhcpLeaseTime c.options with _ | found <;> simp

/-- **The lease time of a configuration** is the first accepted one of the file, and else the default. -/
theorem configuredLease_eq (server sysNetmask : UInt32) (file : Option (List UInt8)) :
    (startConfig resolve defaultMaxLease server sysNetmask file).lease = (fileLease file).getD defaultLeaseTime := by
  have start : findOption dhcpLeaseTime (readDefaults resolve defaultMaxLease).options = none := by
    have empty : (readDefaults resolve defaultMaxLease).options = [] := by
      simp only [readDefaults, keywords, foldl_cons, foldl_nil, setDefault_options]
      rfl
    rw [empty]
    rfl
  have read : findOption dhcpLeaseTime (readConfig resolve defaultMaxLease file).options =
      (fileLease file).map fun value => ⟨dhcpLeaseTime, leBytes (htonl value)⟩ := by
    cases file with
    | none =>
      rw [readConfig, start]
      rfl
    | some file =>
      rw [readConfig, findOption_readLines, start]
      rfl
  show configuredLease (readConfig resolve defaultMaxLease file).options = _
  rw [configuredLease, read]
  rcases fileLease file with _ | value
  · rfl
  · simp

end

/-! ## The slot of a lease -/

def grantedTime (setup : Setup) (env : Env) (packet : Packet) (yiaddr : UInt32) : UInt32 :=
  ipcloneOr setup.config env packet yiaddr (ackLeaseTime setup.config packet)

/-- The slot that `sendACK` records: none if the packet cannot be sent or the table is full. -/
def recordedSlot (setup : Setup) (env : Env) (packet : Packet) (yiaddr : UInt32) (s : Server) : Option Lease :=
  if env.sendOk then
    (addLease s.time packet.chaddr yiaddr (grantedTime setup env packet yiaddr) (ackHostname env packet) s.leases).1.bind
      fun i => (sendACK setup env packet yiaddr s).leases[i]?
  else none

def Live (granted : UInt32) (s : Server) (slot : Lease) : Prop :=
  leaseExpired s.time slot = false ∧ slot.expires.toNat = s.clock + granted.toNat

instance (granted : UInt32) (s : Server) (slot : Lease) : Decidable (Live granted s slot) :=
  inferInstanceAs (Decidable (_ ∧ _))

/-- The lease time is not the one of a WAN link. -/
def NoClone (setup : Setup) (env : Env) (packet : Packet) (yiaddr : UInt32) : Prop :=
  onPoolNetwork setup.config yiaddr = true ∨ env.ipcloneLeaseTime packet.chaddr = none

section

variable {setup : Setup} {env : Env} {packet : Packet} {yiaddr : UInt32} {s : Server} {slot : Lease}

theorem ackLeaseTime_le (config : ServerConfig) (packet : Packet) : ackLeaseTime config packet ≤ config.lease := by
  unfold ackLeaseTime
  split
  · split
    · exact UInt32.le_refl _
    · rename_i notMore
      split
      · exact UInt32.le_refl _
      · exact UInt32.not_lt.1 notMore
  · exact UInt32.le_refl _

theorem grantedTime_of_noClone (plain : NoClone setup env packet yiaddr) :
    grantedTime setup env packet yiaddr = ackLeaseTime setup.config packet := by
  unfold grantedTime ipcloneOr
  rcases plain with pool | none
  · rw [if_pos pool]
  · rw [none, getD_none, ite_self]

variable (setup env packet yiaddr s) in
theorem recordedSlot_eq : recordedSlot setup env packet yiaddr s =
      if env.sendOk then
        (addLease s.time packet.chaddr yiaddr (grantedTime setup env packet yiaddr) (ackHostname env packet) s.leases).1.map
          fun _ => ⟨packet.chaddr, yiaddr, s.time + grantedTime setup env packet yiaddr, ackHostname env packet⟩
      else none := by
  unfold recordedSlot
  split
  · rename_i sent
    have table : (sendACK setup env packet yiaddr s).leases = (addLease s.time packet.chaddr yiaddr
        (grantedTime setup env packet yiaddr) (ackHostname env packet) s.leases).2 := by
      rw [sendACK, if_pos sent]
      rfl
    rw [table]
    rcases addLease_cases s.time packet.chaddr yiaddr (grantedTime setup env packet yiaddr) (ackHostname env packet)
      s.leases with ⟨i, old, added, inside, -⟩ | ⟨full, -⟩
    · obtain ⟨bound, -⟩ := List.getElem?_eq_some_iff.1 inside
      rw [added]
      exact getElem?_set_self bound
    · rw [full]
      rfl
  · rfl

theorem expires_of_recorded (recorded : recordedSlot setup env packet yiaddr s = some slot) :
    slot.expires = s.time + grantedTime setup env packet yiaddr := by
  rw [recordedSlot_eq] at recorded
  split at recorded
  · obtain ⟨-, -, rfl⟩ := map_eq_some_iff.1 recorded
    rfl
  · cases recorded

/-- A sum that wraps around is in the past. -/
theorem live_iff (granted : UInt32) (expires : slot.expires = s.time + granted) (early : s.clock < 2 ^ 31) :
    Live granted s slot ↔ s.clock + granted.toNat < 2 ^ 32 := by
  have time : s.time.toNat = s.clock := by
    rw [Book.time, UInt32.toNat_ofNat']
    omega
  have small := granted.toNat_lt
  rw [Live, leaseExpired, decide_eq_false_iff_not, UInt32.lt_iff_toNat_lt, expires, UInt32.toNat_add]
  omega

/-- A server with one empty slot, one second before the 31-bit times end. -/
def lastSecond : Server := ⟨⟨[Lease.zero], 2 ^ 31 - 1, []⟩, [], []⟩

/-- Nothing but the clock matters to this client. -/
def plainEnv : Env :=
  { elapsed := 0, probes := [], localIp := 0, ipcloneLeaseTime := fun _ => none
    dhcpdOp := true, autoDetect := false, sendOk := true, unpermitted := fun _ => false }

theorem recordedSlot_lastSecond (setup : Setup) (packet : Packet) (yiaddr : UInt32) :
    ∃ slot, recordedSlot setup plainEnv packet yiaddr lastSecond = some slot := by
  have usable : (addLease lastSecond.time packet.chaddr yiaddr (grantedTime setup plainEnv packet yiaddr)
      (ackHostname plainEnv packet) lastSecond.leases).1 ≠ none := by
    rw [Ne, addLease_eq_none, not_or]
    exact ⟨by decide, fun all => absurd (all Lease.zero mem_cons_self).1 (by decide)⟩
  obtain ⟨i, chosen⟩ := ne_none_iff_exists'.1 usable
  rw [recordedSlot_eq, chosen]
  exact ⟨_, rfl⟩

end

/-- **A freshly granted lease is live** exactly if the sum of time and granted time fits in 32 bits.
A configuration keeps all its leases live, twin-IP clones apart, exactly if the first lease time
that its file sets, if any, is at most 2^31. -/
theorem granted_lease_live_iff (resolve : CString → Option UInt32) (defaultMaxLease : CString)
    (server sysNetmask : UInt32) (file : Option (List UInt8)) (static : List StaticLease) :
    let setup : Setup := ⟨startConfig resolve defaultMaxLease server sysNetmask file, static⟩
    (∀ env packet yiaddr s slot, s.clock < 2 ^ 31 → recordedSlot setup env packet yiaddr s = some slot →
      (Live (grantedTime setup env packet yiaddr) s slot ↔
        s.clock + (grantedTime setup env packet yiaddr).toNat < 2 ^ 32)) ∧
    ((∀ env packet yiaddr s slot, s.clock < 2 ^ 31 → NoClone setup env packet yiaddr →
        recordedSlot setup env packet yiaddr s = some slot → Live (grantedTime setup env packet yiaddr) s slot) ↔
      ∀ value, fileLease file = some value → value.toNat ≤ 2 ^ 31) := by
  intro setup
  have lease : setup.config.lease = (fileLease file).getD defaultLeaseTime :=
    configuredLease_eq resolve defaultMaxLease server sysNetmask file
  refine ⟨fun env packet yiaddr s slot early recorded => live_iff _ (expires_of_recorded recorded) early, ?_⟩
  constructor
  · intro live value first
    let packet : Packet := ⟨blankChaddr, 0, none, none, none, none, []⟩
    obtain ⟨slot, recorded⟩ := recordedSlot_lastSecond setup packet 0
    have granted : grantedTime setup plainEnv packet 0 = value := by
      rw [grantedTime_of_noClone (.inr rfl)]
      show setup.config.lease = value
      rw [lease, first, getD_some]
    have fits := (live_iff _ (expires_of_recorded recorded) (by decide)).1
      (live plainEnv packet 0 lastSecond slot (by decide) (.inr rfl) recorded)
    rw [granted] at fits
    have clock : lastSecond.clock = 2 ^ 31 - 1 := rfl
    omega
  · intro bounded env packet yiaddr s slot early plain recorded
    refine (live_iff _ (expires_of_recorded recorded) early).2 ?_
    have le := UInt32.le_iff_toNat_le.1 (ackLeaseTime_le setup.config packet)
    rw [grantedTime_of_noClone plain]
    have most : setup.config.lease.toNat ≤ 2 ^ 31 := by
      rw [lease]
      cases first : fileLease file with
      | none => decide
      | some value => exact bounded value first
    omega

namespace Sample

/-- A configuration file with the line `option lease 4294967295`. -/
def longLease : List UInt8 :=
  ascii (['o', 'p', 't', 'i', 'o', 'n', ' ', 'l', 'e', 'a', 's', 'e', ' '] ++
    ['4', '2', '9', '4', '9', '6', '7', '2', '9', '5']) ++ [lf]

/-- A server that has read it. -/
def longSetup : Setup :=
  ⟨startConfig (fun _ => none) (ofBuffer (ascii ['1', '0', '2', '4'])) (ip 1) 0xFFFFFF00 (some longLease), []⟩

end Sample

open Sample

/-- The lease is expired when it is recorded. -/
theorem lease_expired_at_once : longSetup.config.lease = 0xFFFFFFFF ∧
      ∃ slot, recordedSlot longSetup env (request (mac 7) (ip 20)).packet (ip 20)
          ⟨⟨[Lease.zero], 1000, []⟩, [], []⟩ = some slot ∧ leaseExpired 1000 slot = true := by
  refine ⟨by decide +kernel, ⟨mac 7, ip 20, 999, noHostname⟩, by decide +kernel, by decide⟩

end RouterApps.Udhcpd
