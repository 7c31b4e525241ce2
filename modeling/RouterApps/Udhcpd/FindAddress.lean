/-
# Udhcpd.FindAddress -- the search for an address (leases.c)

`find_address` goes through the pool and returns the first address that nothing speaks against.
The search changes the table that it looks at: an address that answers a probe is entered, and
the entry may take the slot of an expired lease.  On a network that does not change during the
call (`tryAddress`) the search is sound and complete with respect to the table at entry
(`find_address_sound_complete`), as far as no address has two slots: `find_lease_by_yiaddr` looks at
the first slot only (`second_slot_not_seen`).
-/
import RouterApps.Theory.Search
import RouterApps.Udhcpd.Server

namespace RouterApps.Udhcpd

open CLib Theory.Table Theory.Search List Option

/-! ## A network that does not change -/

/-- The lease table, and the addresses that were probed so far. -/
structure Searched where
  leases : List Lease
  asked : List UInt32
deriving DecidableEq

/-- The slot test of `find_address`, for a reading of the clock. -/
def assignableAt (now : UInt32) (checkExpired : Bool) (addr : UInt32) (leases : List Lease) : Bool :=
  match findLeaseByYiaddr addr leases with
  | none => true
  | some lease => checkExpired && leaseExpired now lease

/-- The body of the loop of `find_address`; `addr` is in host order.  `arp` says who answers a
probe, `looked` and `added` are the readings of the clock. -/
def tryAddress (setup : Setup) (localIp : UInt32) (arp : UInt32 → Bool) (checkExpired : Bool)
    (looked added addr : UInt32) (s : Searched) : Bool × Searched :=
  if addr = ntohl localIp then (false, s)
  else if addr &&& 0xFF = 0 then (false, s)
  else if addr &&& 0xFF = 0xFF then (false, s)
  else if (findStaticLeaseByYiaddr (htonl addr) setup.static).isSome then (false, s)
  else if assignableAt looked checkExpired (htonl addr) s.leases then
    let s := { s with asked := s.asked ++ [htonl addr] }
    if arp (htonl addr) then
      (false, { s with
        leases := (addLease added blankChaddr (htonl addr) setup.config.conflictTime noHostname s.leases).2 })
    else (true, s)
  else (false, s)

/-- The answer of a search: the address in network order, 0 for none. -/
def answer (found : Option UInt32 × Searched) : UInt32 × Searched := ((found.1.map htonl).getD 0, found.2)

/-- `find_address` while the network and the clock stand still. -/
def findAddressStill (setup : Setup) (localIp : UInt32) (arp : UInt32 → Bool) (now : UInt32) (checkExpired : Bool)
    (fuel : Nat) (leases : List Lease) : Option (UInt32 × Searched) :=
  (countUp (tryAddress setup localIp arp checkExpired now now) (ntohl setup.config.stop) fuel
    (ntohl setup.config.start) ⟨leases, []⟩).map answer

/-! ## One address -/

/-- An address that may be given away as far as the configuration and the network go. -/
structure Suitable (setup : Setup) (localIp : UInt32) (arp : UInt32 → Bool) (yiaddr : UInt32) : Prop where
  inPool : setup.config.inPool yiaddr = true
  notNetwork : ntohl yiaddr &&& 0xFF ≠ 0
  notBroadcast : ntohl yiaddr &&& 0xFF ≠ 0xFF
  notRouter : yiaddr ≠ localIp
  notReserved : ∀ l ∈ setup.static, l.yiaddr ≠ yiaddr
  silent : arp yiaddr = false

/-- No unexpired slot holds the address. -/
def Unheld (now yiaddr : UInt32) (leases : List Lease) : Prop :=
  ∀ l ∈ leases, l.yiaddr = yiaddr → leaseExpired now l = true

/-- What the search asks of the table: no slot holds the address, or no unexpired one. -/
def Available (checkExpired : Bool) (now yiaddr : UInt32) (leases : List Lease) : Prop :=
  if checkExpired then Unheld now yiaddr leases else ∀ l ∈ leases, l.yiaddr ≠ yiaddr

variable {yiaddr : UInt32} {leases : List Lease} {checkExpired : Bool} {arp : UInt32 → Bool} {setup : Setup}
  {localIp : UInt32}

section

variable
  {looked added addr yiaddr : UInt32} {s : Searched}

/-- What the tests of the loop ask of an address, the slot apart. -/
structure Passes (setup : Setup) (localIp : UInt32) (arp : UInt32 → Bool) (addr : UInt32) : Prop where
  notRouter : addr ≠ ntohl localIp
  notNetwork : addr &&& 0xFF ≠ 0
  notBroadcast : addr &&& 0xFF ≠ 0xFF
  notReserved : ∀ l ∈ setup.static, l.yiaddr ≠ htonl addr
  silent : arp (htonl addr) = false

theorem findStaticLeaseByYiaddr_isSome {static : List StaticLease} :
    (findStaticLeaseByYiaddr yiaddr static).isSome = false ↔ ∀ l ∈ static, l.yiaddr ≠ yiaddr := by
  simp [findStaticLeaseByYiaddr]

theorem tryAddress_fst : (tryAddress setup localIp arp checkExpired looked added addr s).1 = true ↔
      Passes setup localIp arp addr ∧ assignableAt looked checkExpired (htonl addr) s.leases = true := by
  constructor
  · intro succeeded
    simp only [tryAddress] at succeeded
    split at succeeded
    · cases succeeded
    split at succeeded
    · cases succeeded
    split at succeeded
    · cases succeeded
    split at succeeded
    · cases succeeded
    split at succeeded
    · split at succeeded
      · cases succeeded
      · rename_i router network broadcast reserved free silent
        refine ⟨⟨router, network, broadcast, ?_, by simpa using silent⟩, free⟩
        exact findStaticLeaseByYiaddr_isSome.1 (by simpa using reserved)
    · cases succeeded
  · rintro ⟨passes, free⟩
    have reserved := findStaticLeaseByYiaddr_isSome.2 passes.notReserved
    simp [tryAddress, passes.notRouter, passes.notNetwork, passes.notBroadcast, reserved, free, passes.silent]

theorem tryAddress_leases (setup : Setup) (localIp : UInt32) (arp : UInt32 → Bool) (checkExpired : Bool)
    (looked added addr : UInt32) (s : Searched) :
    (tryAddress setup localIp arp checkExpired looked added addr s).2.leases = s.leases ∨
      arp (htonl addr) = true ∧
        (tryAddress setup localIp arp checkExpired looked added addr s).1 = false ∧
        (tryAddress setup localIp arp checkExpired looked added addr s).2.leases =
          (addLease added blankChaddr (htonl addr) setup.config.conflictTime noHostname s.leases).2 := by
  simp only [tryAddress]
  split
  · exact .inl rfl
  split
  · exact .inl rfl
  split
  · exact .inl rfl
  split
  · exact .inl rfl
  split
  · split
    · rename_i answers
      exact .inr ⟨answers, rfl, rfl⟩
    · exact .inl rfl
  · exact .inl rfl

theorem tryAddress_leases_of_success
    (succeeded : (tryAddress setup localIp arp checkExpired looked added addr s).1 = true) :
    (tryAddress setup localIp arp checkExpired looked added addr s).2.leases = s.leases := by
  rcases tryAddress_leases setup localIp arp checkExpired looked added addr s with same | ⟨-, failed, -⟩
  · exact same
  · rw [failed] at succeeded
    cases succeeded

variable {l : Lease}

theorem mem_tryAddress (silent : arp yiaddr = false) (used : yiaddr ≠ 0)
    (inside : l ∈ (tryAddress setup localIp arp checkExpired looked added addr s).2.leases)
    (holds : l.yiaddr = yiaddr) : l ∈ s.leases := by
  rcases tryAddress_leases setup localIp arp checkExpired looked added addr s with same | ⟨answers, -, entered⟩
  · rwa [same] at inside
  · rw [entered] at inside
    rcases mem_addLease inside with rfl | rfl | ⟨old, -⟩
    · rw [← holds, answers] at silent
      cases silent
    · exact absurd holds.symm used
    · exact old

theorem tryAddress_keeps (silent : arp yiaddr = false) (inside : l ∈ s.leases)
    (holds : l.yiaddr = yiaddr) (live : leaseExpired added l = false) :
    l ∈ (tryAddress setup localIp arp checkExpired looked added addr s).2.leases := by
  rcases tryAddress_leases setup localIp arp checkExpired looked added addr s with same | ⟨answers, -, entered⟩
  · rwa [same]
  · rw [entered]
    have apart : Apart blankChaddr (htonl addr) l := by
      refine ⟨fun nonblank => absurd rfl nonblank, fun _ same => ?_⟩
      rw [← holds, same, answers] at silent
      cases silent
    exact addLease_keeps inside apart (by simpa [leaseExpired] using live)

theorem assignableAt_of_available {now : UInt32}
    (available : Available checkExpired now yiaddr leases) : assignableAt now checkExpired yiaddr leases = true := by
  unfold assignableAt
  split
  · rfl
  · rename_i lease found
    obtain ⟨inside, same⟩ := findLeaseByYiaddr_eq_some found
    cases checkExpired with
    | false => exact absurd same (available lease inside)
    | true => exact available lease inside same

theorem suitable_iff : Suitable setup localIp arp yiaddr ↔
      setup.config.inPool yiaddr = true ∧ Passes setup localIp arp (ntohl yiaddr) := by
  have back : htonl (ntohl yiaddr) = yiaddr := ntohl_ntohl yiaddr
  constructor
  · intro suitable
    refine ⟨suitable.inPool, ?_, suitable.notNetwork, suitable.notBroadcast, ?_, ?_⟩
    · intro same
      exact suitable.notRouter (by rw [← ntohl_ntohl yiaddr, same, ntohl_ntohl])
    · rw [back]
      exact suitable.notReserved
    · rw [back]
      exact suitable.silent
  · rintro ⟨inPool, passes⟩
    refine ⟨inPool, passes.notNetwork, passes.notBroadcast, ?_, ?_, ?_⟩
    · rintro rfl
      exact passes.notRouter rfl
    · have free := passes.notReserved
      rwa [back] at free
    · have silent := passes.silent
      rwa [back] at silent

theorem Passes.ne_zero (passes : Passes setup localIp arp addr) : htonl addr ≠ 0 := by
  intro zero
  have host : addr = 0 := by
    rw [← ntohl_htonl addr, zero]
    rfl
  exact passes.notNetwork (by rw [host]; rfl)

end

/-! ## The search -/

variable {now : UInt32}

section

/-- For an address that does not answer, the search enters no slot, and the unexpired ones stay. -/
structure Traces (now yiaddr : UInt32) (leases : List Lease) (s : Searched) : Prop where
  entered : ∀ l ∈ s.leases, l.yiaddr = yiaddr → l ∈ leases
  stayed : ∀ l ∈ leases, l.yiaddr = yiaddr → leaseExpired now l = false → l ∈ s.leases

variable {s : Searched}

theorem Traces.tryAddress {looked addr : UInt32}
    (traces : Traces now yiaddr leases s) (silent : arp yiaddr = false) (used : yiaddr ≠ 0) :
    Traces now yiaddr leases (tryAddress setup localIp arp checkExpired looked now addr s).2 where
  entered l inside holds := traces.entered l (mem_tryAddress silent used inside holds) holds
  stayed l inside holds live := tryAddress_keeps silent (traces.stayed l inside holds live) holds live

/-- A found address has no unexpired slot, before or after, if it has one slot at most. -/
theorem Traces.unheld (traces : Traces now yiaddr leases s)
    (used : yiaddr ≠ 0) (distinct : Distinct Lease.yiaddr 0 leases)
    (free : assignableAt now checkExpired yiaddr s.leases = true) :
    Unheld now yiaddr leases ∧ Unheld now yiaddr s.leases := by
  have after : Unheld now yiaddr s.leases := by
    intro l inside holds
    unfold assignableAt at free
    split at free
    · rename_i absent
      exact absurd holds (findLeaseByYiaddr_eq_none.1 absent l inside)
    · rename_i first found
      obtain ⟨there, same⟩ := findLeaseByYiaddr_eq_some found
      -- the slot that was found is the only one
      have one : first = l := distinct.eq_of_mem (traces.entered first there same) (traces.entered l inside holds)
        (same.trans holds.symm) (same ▸ used)
      rw [← one]
      exact (Bool.and_eq_true _ _ ▸ free).2
  refine ⟨fun l inside holds => ?_, after⟩
  cases live : leaseExpired now l with
  | true => rfl
  | false => exact live ▸ after l (traces.stayed l inside holds live) holds

end

section

variable {found : Searched}

theorem not_available_of_missed {τ : Type} {looked added address : τ → UInt32} {candidates : List τ} {entry : UInt32}
    (missed : (firstSuccess
      (fun t => tryAddress setup localIp arp checkExpired (looked t) (added t) (address t)) candidates
      ⟨leases, []⟩).1 = none) (suitable : Suitable setup localIp arp yiaddr)
    (reached : ∃ t ∈ candidates, address t = ntohl yiaddr ∧ (checkExpired = true → entry ≤ looked t)) :
    ¬ Available checkExpired entry yiaddr leases := by
  intro available
  obtain ⟨-, passes⟩ := suitable_iff.1 suitable
  have back := ntohl_ntohl yiaddr
  have used : yiaddr ≠ 0 := back ▸ passes.ne_zero
  obtain ⟨t, tried, addr, late⟩ := reached
  -- no attempt enters a slot for this address
  obtain ⟨before, entered, failed⟩ := firstSuccess_eq_none
    (I := fun s => ∀ l ∈ s.leases, l.yiaddr = yiaddr → l ∈ leases)
    (fun a s holds _ l inside same => holds l (mem_tryAddress suitable.silent used inside same) same)
    (fun l inside _ => inside) missed t tried
  have still : Available checkExpired (looked t) yiaddr before.leases := by
    cases checkExpired with
    | false => exact fun l inside same => available l (entered l inside same) same
    | true =>
      intro l inside same
      have expired := available l (entered l inside same) same
      simp only [leaseExpired, decide_eq_true_eq] at expired ⊢
      exact UInt32.lt_of_lt_of_le expired (late rfl)
  have free := assignableAt_of_available still
  rw [← back] at free
  rw [addr, tryAddress_fst.2 ⟨passes, free⟩] at failed
  cases failed

theorem suitable_of_found {addr : UInt32} (searched : firstSuccess (tryAddress setup localIp arp checkExpired now now)
      (upTo (ntohl setup.config.start) (ntohl setup.config.stop)) ⟨leases, []⟩ = (some addr, found)) :
    htonl addr ≠ 0 ∧ Suitable setup localIp arp (htonl addr) ∧
      (Distinct Lease.yiaddr 0 leases → Unheld now (htonl addr) leases ∧ Unheld now (htonl addr) found.leases) ∧
      (checkExpired = false → ∀ l ∈ found.leases, l.yiaddr ≠ htonl addr) := by
  -- the address passes, whatever the state it was tried in
  obtain ⟨inside, _, -, succeeded⟩ := firstSuccess_eq_some (I := fun _ => True) (fun _ _ _ _ => trivial)
    trivial searched
  obtain ⟨passes, -⟩ := tryAddress_fst.1 (congrArg Prod.fst succeeded)
  have used := passes.ne_zero
  obtain ⟨-, before, traces, succeeded⟩ := firstSuccess_eq_some (I := Traces now (htonl addr) leases)
    (fun a s holds _ => holds.tryAddress passes.silent used)
    ⟨fun _ inside _ => inside, fun _ inside _ _ => inside⟩ searched
  obtain ⟨-, free⟩ := tryAddress_fst.1 (congrArg Prod.fst succeeded)
  have same : found.leases = before.leases := by
    rw [← tryAddress_leases_of_success (congrArg Prod.fst succeeded), succeeded]
  refine ⟨used, suitable_iff.2 ⟨?_, by rwa [ntohl_htonl]⟩, ?_, ?_⟩
  · have range := mem_upTo.1 inside
    simpa [ServerConfig.inPool] using range
  · intro distinct
    rw [same]
    exact traces.unheld used distinct free
  · rintro rfl l there
    rw [same] at there
    unfold assignableAt at free
    split at free
    · rename_i absent
      exact findLeaseByYiaddr_eq_none.1 absent l there
    · cases free

end

/-- **Search for an address.**  For a pool that ends below 255.255.255.255 the search returns.  An
address that it returns is suitable, and if no address has two slots, no unexpired slot holds it.
It returns 0 only if no suitable address was available at entry. -/
theorem find_address_sound_complete (setup : Setup) (localIp : UInt32) (arp : UInt32 → Bool) (now : UInt32)
    (checkExpired : Bool) (leases : List Lease) (bounded : ntohl setup.config.stop < 0xFFFFFFFF) : ∃ ret found,
      (∀ fuel, 2 ^ 32 < fuel → findAddressStill setup localIp arp now checkExpired fuel leases = some (ret, found)) ∧
      (ret ≠ 0 → Suitable setup localIp arp ret ∧
        (Distinct Lease.yiaddr 0 leases → Unheld now ret leases ∧ Unheld now ret found.leases) ∧
        (checkExpired = false → ∀ l ∈ found.leases, l.yiaddr ≠ ret)) ∧
      (ret = 0 → ∀ yiaddr, Suitable setup localIp arp yiaddr → ¬ Available checkExpired now yiaddr leases) := by
  have returns : ∀ fuel, 2 ^ 32 < fuel → findAddressStill setup localIp arp now checkExpired fuel leases =
      some (answer (firstSuccess (tryAddress setup localIp arp checkExpired now now)
        (upTo (ntohl setup.config.start) (ntohl setup.config.stop)) ⟨leases, []⟩)) := by
    intro fuel enough
    have small := (ntohl setup.config.stop).toNat_lt
    rw [findAddressStill, countUp_eq _ bounded _ (by omega), map_some]
  rcases searched : firstSuccess (tryAddress setup localIp arp checkExpired now now)
    (upTo (ntohl setup.config.start) (ntohl setup.config.stop)) ⟨leases, []⟩ with ⟨_ | addr, found⟩
  · rw [searched] at returns
    refine ⟨0, found, returns, fun nonzero => absurd rfl nonzero, fun _ yiaddr suitable => ?_⟩
    refine not_available_of_missed (congrArg Prod.fst searched) suitable ⟨ntohl yiaddr, ?_, rfl, fun _ => UInt32.le_refl _⟩
    apply mem_upTo.2
    simpa [ServerConfig.inPool] using (suitable_iff.1 suitable).1
  · rw [searched] at returns
    obtain ⟨used, sound⟩ := suitable_of_found searched
    exact ⟨htonl addr, found, returns, fun _ => sound, fun zero => absurd zero used⟩

open Sample

/-- The addresses .20 and .21 are free, and somebody without a lease uses .20. -/
theorem search_around_conflict : ∃ ret found,
      (∀ fuel, 2 ^ 32 < fuel →
        findAddressStill ⟨config, []⟩ (ip 1) (fun a => a = ip 20) 1000 false fuel
          [Lease.zero, Lease.zero] = some (ret, found)) ∧
      ret ≠ 0 := by
  obtain ⟨ret, found, returns, -, complete⟩ := find_address_sound_complete ⟨config, []⟩ (ip 1)
    (fun a => a = ip 20) 1000 false [Lease.zero, Lease.zero] (by decide)
  refine ⟨ret, found, returns, fun zero => complete zero (ip 21) ?_ ?_⟩
  · exact ⟨by decide, by decide, by decide, by decide, by simp, by decide⟩
  · show ∀ l ∈ [Lease.zero, Lease.zero], l.yiaddr ≠ ip 21
    decide

/-- An address with two slots, the first expired and the second not: the search returns it. -/
theorem second_slot_not_seen : let leases : List Lease :=
      [⟨mac 1, ip 20, 500, noHostname⟩, ⟨mac 2, ip 20, 2000, noHostname⟩]
    findAddressStill ⟨config, []⟩ (ip 1) (fun _ => false) 1000 true 3 leases =
        some (ip 20, ⟨leases, [ip 20]⟩) ∧
      ∃ l ∈ leases, l.yiaddr = ip 20 ∧ leaseExpired 1000 l = false := by
  decide

/-! ## The server's search -/

section

variable {env : Env}

/-- The body of the loop of `findAddressFrom`. -/
def tryServer (setup : Setup) (env : Env) (checkExpired : Bool) (addr : UInt32) (s : Server) : Bool × Server :=
  if addr = ntohl env.localIp then (false, s)
  else if addr &&& 0xFF = 0 then (false, s)
  else if addr &&& 0xFF = 0xFF then (false, s)
  else if (findStaticLeaseByYiaddr (htonl addr) setup.static).isSome then (false, s)
  else if assignable checkExpired (htonl addr) s then
    match checkIp setup (htonl addr) s with
    | (used, s) => (!used, s)
  else (false, s)

variable (fuel : Nat) (addr : UInt32)

theorem findAddressFrom_eq_countUp (s : Server) : findAddressFrom setup env checkExpired fuel addr s =
      (countUp (tryServer setup env checkExpired) (ntohl setup.config.stop) fuel addr s).map fun found =>
        ((found.1.map htonl).getD 0, found.2) := by
  induction fuel generalizing addr s with
  | zero => rfl
  | succ fuel ih =>
    simp only [findAddressFrom, countUp]
    by_cases inside : addr ≤ ntohl setup.config.stop
    · rw [if_pos inside]
      rw [tryServer]
      split
      · exact ih _ _
      split
      · exact ih _ _
      split
      · exact ih _ _
      split
      · exact ih _ _
      split
      · rcases checkIp setup (htonl addr) s with ⟨_ | _, later⟩
        · simp
        · exact ih _ _
      · exact ih _ _
    · rw [if_neg inside, if_neg inside]
      rfl

end

end RouterApps.Udhcpd
