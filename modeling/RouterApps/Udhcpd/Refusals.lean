/-
# Udhcpd.Refusals -- a DISCOVER that gets no offer (serverpacket.c)

For a client that it knows nothing about, `sendOffer` takes the address that the client asks for,
or it searches: with `find_address(0)` for an address that has no slot, and if there is none with
`find_address(1)` for one whose lease is expired.  It gives up when it has no address then.

The branch for a requested address that turns out to be in use tests the outcome of the first
search the wrong way round: it searches again when the first search found something, and gives up
when it found nothing.  `refused_although_expired` is a client that is turned away although an
address is there, and `refusal_needed_iff` says exactly when a client is turned away for nothing.
-/
import RouterApps.Udhcpd.FindAddress

namespace RouterApps.Udhcpd

open CLib Theory.Search Option

/-! ## Searches that end -/

section

variable {setup : Setup} {env : Env} {checkExpired : Bool}

/-- `find_address` returns `yiaddr` and leaves the state `s'`. -/
def Yields (setup : Setup) (env : Env) (checkExpired : Bool) (s : Server) (yiaddr : UInt32) (s' : Server) : Prop :=
  ∃ fuel, findAddress setup env fuel checkExpired s = some (yiaddr, s')

/-- `find_address(0)` and then `find_address(1)` return 0. -/
def BothFail (setup : Setup) (env : Env) (s : Server) : Prop :=
  ∃ s₁ s₂, Yields setup env false s 0 s₁ ∧ Yields setup env true s₁ 0 s₂

theorem findAddress_mono {fuel more : Nat} (le : fuel ≤ more) {s : Server} {r : UInt32 × Server}
    (found : findAddress setup env fuel checkExpired s = some r) :
    findAddress setup env more checkExpired s = some r := by
  rw [findAddress, findAddressFrom_eq_countUp] at found ⊢
  obtain ⟨ended, counted, same⟩ := map_eq_some_iff.1 found
  rw [countUp_mono le counted, map_some, same]

theorem Yields.unique {s s₁ s₂ : Server} {y₁ y₂ : UInt32} (first : Yields setup env checkExpired s y₁ s₁)
    (second : Yields setup env checkExpired s y₂ s₂) : y₁ = y₂ ∧ s₁ = s₂ := by
  obtain ⟨fuel₁, first⟩ := first
  obtain ⟨fuel₂, second⟩ := second
  have same := (findAddress_mono (Nat.le_max_left fuel₁ fuel₂) first).symm.trans
    (findAddress_mono (Nat.le_max_right fuel₁ fuel₂) second)
  cases same
  exact ⟨rfl, rfl⟩

theorem exists_fuel {s s₁ s₂ : Server} {first second : Bool} {y₁ y₂ : UInt32} (found : Yields setup env first s y₁ s₁)
    (again : Yields setup env second s₁ y₂ s₂) :
    ∃ fuel, findAddress setup env fuel first s = some (y₁, s₁) ∧ findAddress setup env fuel second s₁ = some (y₂, s₂) := by
  obtain ⟨fuel₁, found⟩ := found
  obtain ⟨fuel₂, again⟩ := again
  exact ⟨max fuel₁ fuel₂, findAddress_mono (Nat.le_max_left _ _) found, findAddress_mono (Nat.le_max_right _ _) again⟩

end

/-! ## Giving up -/

/-- `sendOffer` gives up because it has no address (`yiaddr` is 0). -/
def Abandoned (setup : Setup) (env : Env) (packet : Packet) (s : Server) : Prop :=
  ∃ fuel leaseTime s', offerAddress setup env fuel packet s = some (0, leaseTime, s')

/-- The requested address, if `sendOffer` considers it. -/
def considered (setup : Setup) (packet : Packet) (s : Server) : Option UInt32 :=
  packet.requested.filter (requestable setup s)

/-- The state in which `sendOffer` may search: a requested address has been probed. -/
def searchPoint (setup : Setup) (packet : Packet) (s : Server) : Server :=
  match considered setup packet s with
  | some req => (checkIp setup req s).2
  | none => s

/-- The searches after a conflict: the second one runs if the first found something. -/
def GivesUpAfterConflict (setup : Setup) (env : Env) (point : Server) : Prop :=
  (∃ s₁, Yields setup env false point 0 s₁) ∨
    ∃ yiaddr s₁ s₂, yiaddr ≠ 0 ∧ Yields setup env false point yiaddr s₁ ∧ Yields setup env true s₁ 0 s₂

/-- The requested address was in conflict, and `find_address(0)` returns 0 though `find_address(1)`
would not, or `find_address(1)` returns 0 after `find_address(0)` found an address; or the client
asked for 0.0.0.0 and that is in the pool. -/
def NeedlessRefusal (setup : Setup) (env : Env) (packet : Packet) (s : Server) : Prop :=
  ∃ req, considered setup packet s = some req ∧
    ((checkIp setup req s).1 = true ∧
        ((∃ s₁, Yields setup env false (checkIp setup req s).2 0 s₁ ∧ ∀ s₂, ¬ Yields setup env true s₁ 0 s₂) ∨
          ∃ yiaddr s₁ s₂, yiaddr ≠ 0 ∧ Yields setup env false (checkIp setup req s).2 yiaddr s₁ ∧
            Yields setup env true s₁ 0 s₂) ∨
      (checkIp setup req s).1 = false ∧ req = 0 ∧ ¬ BothFail setup env (checkIp setup req s).2)

theorem givesUpAfterConflict_needless {setup : Setup} {env : Env} {point : Server} :
    GivesUpAfterConflict setup env point ∧ ¬ BothFail setup env point ↔
      (∃ s₁, Yields setup env false point 0 s₁ ∧ ∀ s₂, ¬ Yields setup env true s₁ 0 s₂) ∨
        ∃ yiaddr s₁ s₂, yiaddr ≠ 0 ∧ Yields setup env false point yiaddr s₁ ∧ Yields setup env true s₁ 0 s₂ := by
  constructor
  · rintro ⟨⟨s₁, first⟩ | late, fails⟩
    · exact .inl ⟨s₁, first, fun s₂ second => fails ⟨s₁, s₂, first, second⟩⟩
    · exact .inr late
  · rintro (⟨s₁, first, succeeds⟩ | ⟨yiaddr, s₁, s₂, something, first, second⟩)
    · refine ⟨.inl ⟨s₁, first⟩, ?_⟩
      rintro ⟨s₁', s₂, first', second⟩
      obtain ⟨-, rfl⟩ := first.unique first'
      exact succeeds s₂ second
    · refine ⟨.inr ⟨yiaddr, s₁, s₂, something, first, second⟩, ?_⟩
      rintro ⟨s₁', s₂', first', -⟩
      exact something (first.unique first').1

section

variable {setup : Setup} {env : Env} {packet : Packet} {s : Server}

variable (unreserved : findStaticLeaseByChaddr packet.chaddr setup.static = 0)

include unreserved

variable (unknown : findLeaseByChaddr packet.chaddr s.leases = none)

include unknown

theorem offerAddress_eq (fuel : Nat) : offerAddress setup env fuel packet s =
      (match considered setup packet s with
      | some req =>
        match checkIp setup req s with
        | (true, s) => do
          let (yiaddr, s) ← findAddress setup env fuel false s
          if yiaddr ≠ 0 then
            let (yiaddr, s) ← findAddress setup env fuel true s
            some (yiaddr, setup.config.lease, s)
          else some (0, setup.config.lease, s)
        | (false, s) => some (req, setup.config.lease, s)
      | none => do
        let (yiaddr, s) ← findAnyAddress setup env fuel s
        some (yiaddr, setup.config.lease, s)) := by
  rw [offerAddress, if_neg (by simpa using unreserved), unknown]
  rfl

theorem abandoned_iff_of_none (ignored : considered setup packet s = none) :
    Abandoned setup env packet s ↔ BothFail setup env s := by
  constructor
  · rintro ⟨fuel, leaseTime, s', offered⟩
    rw [offerAddress_eq unreserved unknown, ignored] at offered
    simp only [findAnyAddress, bind_eq_bind, bind_eq_some_iff, Prod.exists, some.injEq, Prod.mk.injEq] at offered
    obtain ⟨yiaddr, s₂, ⟨y₁, s₁, first, second⟩, zero, -, -⟩ := offered
    split at second
    · rename_i nothing
      exact ⟨s₁, s₂, ⟨fuel, nothing ▸ first⟩, ⟨fuel, zero ▸ second⟩⟩
    · rename_i something
      cases second
      exact absurd zero something
  · rintro ⟨s₁, s₂, first, second⟩
    obtain ⟨fuel, first, second⟩ := exists_fuel first second
    refine ⟨fuel, setup.config.lease, s₂, ?_⟩
    rw [offerAddress_eq unreserved unknown, ignored]
    simp [findAnyAddress, first, second]

variable {req : UInt32}

theorem abandoned_iff_of_conflict
    (asked : considered setup packet s = some req) (used : (checkIp setup req s).1 = true) :
    Abandoned setup env packet s ↔ GivesUpAfterConflict setup env (checkIp setup req s).2 := by
  have probed : checkIp setup req s = (true, (checkIp setup req s).2) := by rw [← used]
  constructor
  · rintro ⟨fuel, leaseTime, s', offered⟩
    rw [offerAddress_eq unreserved unknown, asked] at offered
    dsimp only at offered
    rw [probed] at offered
    simp only [bind_eq_bind, bind_eq_some_iff, Prod.exists] at offered
    obtain ⟨y₁, s₁, first, offered⟩ := offered
    split at offered
    · rename_i something
      simp only [bind_eq_some_iff, Prod.exists, some.injEq, Prod.mk.injEq] at offered
      obtain ⟨y₂, s₂, second, zero, -, -⟩ := offered
      exact .inr ⟨y₁, s₁, s₂, something, ⟨fuel, first⟩, ⟨fuel, zero ▸ second⟩⟩
    · rename_i nothing
      exact .inl ⟨s₁, fuel, by rw [first, not_not.1 nothing]⟩
  · rintro (⟨s₁, fuel, first⟩ | ⟨y₁, s₁, s₂, something, first, second⟩)
    · refine ⟨fuel, setup.config.lease, s₁, ?_⟩
      rw [offerAddress_eq unreserved unknown, asked]
      dsimp only
      rw [probed]
      simp [first]
    · obtain ⟨fuel, first, second⟩ := exists_fuel first second
      refine ⟨fuel, setup.config.lease, s₂, ?_⟩
      rw [offerAddress_eq unreserved unknown, asked]
      dsimp only
      rw [probed]
      simp [first, second, something]

theorem abandoned_iff_of_free
    (asked : considered setup packet s = some req) (free : (checkIp setup req s).1 = false) :
    Abandoned setup env packet s ↔ req = 0 := by
  have probed : checkIp setup req s = (false, (checkIp setup req s).2) := by rw [← free]
  have offered : ∀ fuel, offerAddress setup env fuel packet s =
      some (req, setup.config.lease, (checkIp setup req s).2) := by
    intro fuel
    rw [offerAddress_eq unreserved unknown, asked]
    dsimp only
    rw [probed]
  constructor
  · rintro ⟨fuel, leaseTime, s', zero⟩
    rw [offered] at zero
    cases zero
    rfl
  · rintro rfl
    exact ⟨0, _, _, offered 0⟩

end

/-- **No needless refusal.**  `sendOffer` gives up only if both searches fail in the state at that
point, exactly if the client is not turned away for nothing. -/
theorem refusal_needed_iff (setup : Setup) (env : Env) (packet : Packet) (s : Server)
    (unreserved : findStaticLeaseByChaddr packet.chaddr setup.static = 0)
    (unknown : findLeaseByChaddr packet.chaddr s.leases = none) :
    (Abandoned setup env packet s → BothFail setup env (searchPoint setup packet s)) ↔
      ¬ NeedlessRefusal setup env packet s := by
  cases asked : considered setup packet s with
  | none =>
    have point : searchPoint setup packet s = s := by rw [searchPoint, asked]
    rw [point, abandoned_iff_of_none unreserved unknown asked]
    refine iff_of_true id ?_
    rintro ⟨req, found, -⟩
    rw [asked] at found
    cases found
  | some req =>
    have point : searchPoint setup packet s = (checkIp setup req s).2 := by rw [searchPoint, asked]
    have only : NeedlessRefusal setup env packet s ↔
        Abandoned setup env packet s ∧ ¬ BothFail setup env (checkIp setup req s).2 := by
      simp only [NeedlessRefusal, asked, Option.some.injEq, exists_eq_left']
      cases used : (checkIp setup req s).1 with
      | true =>
        rw [abandoned_iff_of_conflict unreserved unknown asked used, givesUpAfterConflict_needless]
        simp
      | false =>
        rw [abandoned_iff_of_free unreserved unknown asked used]
        simp
    rw [point, only, not_and, not_not]

namespace Sample

/-- Both addresses of the pool are leased. -/
def fullServer : Server := ⟨⟨[⟨mac 8, ip 20, 5000, noHostname⟩, ⟨mac 9, ip 21, 5000, noHostname⟩], 1000, []⟩, [], []⟩

/-- A lease on .21 that is expired; somebody without a lease uses .20. -/
def expiredServer : Server := ⟨⟨[Lease.zero, ⟨mac 9, ip 21, 500, noHostname⟩], 1000, []⟩, [⟨true, 0⟩], []⟩

def asksTwenty : Packet := (discover (mac 1) (some (ip 20))).packet

end Sample

open Sample

/-- A client that asks for no address is turned away by a server that has none. -/
theorem discover_without_request :
    Abandoned ⟨config, []⟩ env (discover (mac 1) none).packet fullServer ∧
      BothFail ⟨config, []⟩ env fullServer := by
  have offered : (offerAddress ⟨config, []⟩ env 4 (discover (mac 1) none).packet
      fullServer).map (·.1) = some 0 := by decide
  obtain ⟨⟨_, leaseTime, s'⟩, settled, rfl⟩ := map_eq_some_iff.1 offered
  refine ⟨⟨4, leaseTime, s', settled⟩, (refusal_needed_iff ⟨config, []⟩ env
    (discover (mac 1) none).packet fullServer (by decide) (by decide)).2 ?_
    ⟨4, leaseTime, s', settled⟩⟩
  rintro ⟨req, found, -⟩
  cases found

/-- The requested address is in conflict and the other one expired: the client gets no offer. -/
theorem refused_although_expired : Abandoned ⟨config, []⟩ env asksTwenty expiredServer ∧
      ¬ BothFail ⟨config, []⟩ env
        (searchPoint ⟨config, []⟩ asksTwenty expiredServer) := by
  have offered : (offerAddress ⟨config, []⟩ env 4 asksTwenty expiredServer).map (·.1) =
      some 0 := by decide
  have searched : ((findAddress ⟨config, []⟩ env 4 false
      (searchPoint ⟨config, []⟩ asksTwenty expiredServer)).bind fun r =>
        findAddress ⟨config, []⟩ env 4 true r.2).map (·.1) = some (ip 21) := by decide
  constructor
  · obtain ⟨⟨_, leaseTime, s'⟩, settled, rfl⟩ := map_eq_some_iff.1 offered
    exact ⟨4, leaseTime, s', settled⟩
  · rintro ⟨s₁, s₂, first, second⟩
    obtain ⟨⟨_, s₂'⟩, both, rfl⟩ := map_eq_some_iff.1 searched
    obtain ⟨⟨y₁, s₁'⟩, first', second'⟩ := bind_eq_some_iff.1 both
    obtain ⟨-, rfl⟩ := first.unique ⟨4, first'⟩
    exact absurd (second.unique ⟨4, second'⟩).1 (by decide)

end RouterApps.Udhcpd
