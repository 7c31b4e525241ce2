/-
# Udhcpd.Lgdacom -- the search that starts at random (leases_lgdacom.c)

In this build `find_address` first tries as many addresses as the pool has, each at an offset that
the clock and the router's hardware address determine.  If none of them will do it goes on one by
one from the last of them: it does not go back to the start of the pool.

So the search misses an address that lies before the last one tried at random and was not tried
itself (`start_of_pool_missed`).  It is complete, for every table and all answers to probes,
exactly if every address that may be given away is among the tried ones (`tries`), and, where expired
leases count, is tried at a time not before the call (`random_search_complete_iff`).
-/
import RouterApps.Udhcpd.FindAddress

namespace RouterApps.Udhcpd

open CLib Theory.Table Theory.Search List

/-! ## The two loops -/

/-- A turn of the first loop, counted by `n`, or of the second one, counted by `addr`. -/
abbrev Try := UInt32 ⊕ UInt32

/-- What `time(0)` returns: at entry, for the random offset of a turn, for the slot it looks at, and
for the entry of `check_ip`. -/
structure Readings where
  entry : UInt32
  drawn : UInt32 → UInt32
  looked : Try → UInt32
  added : Try → UInt32

/-- `hw` is the sum of the bytes of the hardware address, and `int` and `time_t` have 32 bits. -/
def randomAddress (config : ServerConfig) (hw : Int32) (time : UInt32) : UInt32 :=
  let saddr := ntohl config.start
  let rangeBase : Int32 := (ntohl config.stop - saddr).toInt32
  saddr + ((hw + time.toInt32) % (rangeBase + 1)).toUInt32

/-- The address of a turn, in host order. -/
def Readings.address (clock : Readings) (config : ServerConfig) (hw : Int32) : Try → UInt32 :=
  Sum.elim (fun n => randomAddress config hw (clock.drawn n)) id

/-- The body of both loops. -/
def tryTurn (setup : Setup) (localIp : UInt32) (arp : UInt32 → Bool) (checkExpired : Bool) (hw : Int32)
    (clock : Readings) (t : Try) : Searched → Bool × Searched :=
  tryAddress setup localIp arp checkExpired (clock.looked t) (clock.added t) (clock.address setup.config hw t)

/-- `find_address` of `leases_lgdacom.c`; `uninitialised` is what `addr` holds at entry. -/
def findAddressLgdacom (setup : Setup) (localIp : UInt32) (arp : UInt32 → Bool) (checkExpired : Bool) (hw : Int32)
    (clock : Readings) (uninitialised : UInt32) (fuel : Nat) (leases : List Lease) : Option (UInt32 × Searched) :=
  (drawThenCount (fun n => randomAddress setup.config hw (clock.drawn n))
    (fun n => tryTurn setup localIp arp checkExpired hw clock (Sum.inl n))
    (fun addr => tryTurn setup localIp arp checkExpired hw clock (Sum.inr addr))
    (ntohl setup.config.stop) fuel (ntohl setup.config.start) uninitialised ⟨leases, []⟩).map answer

/-- The turns of a call that finds nothing. -/
def tries (config : ServerConfig) (hw : Int32) (clock : Readings) : List Try :=
  (upTo (ntohl config.start) (ntohl config.stop)).map Sum.inl ++
    (upTo (randomAddress config hw (clock.drawn (ntohl config.stop))) (ntohl config.stop)).map Sum.inr

section

variable {setup : Setup} {localIp : UInt32} {arp : UInt32 → Bool} {checkExpired : Bool} {hw : Int32} {clock : Readings}

theorem findAddressLgdacom_eq (ordered : ntohl setup.config.start ≤ ntohl setup.config.stop)
    (bounded : ntohl setup.config.stop < 0xFFFFFFFF) (uninitialised : UInt32) {fuel : Nat} (enough : 2 ^ 32 < fuel)
    (leases : List Lease) : findAddressLgdacom setup localIp arp checkExpired hw clock uninitialised fuel leases =
      some (answer ((firstSuccess (tryTurn setup localIp arp checkExpired hw clock) (tries setup.config hw clock)
          ⟨leases, []⟩).1.map (clock.address setup.config hw),
        (firstSuccess (tryTurn setup localIp arp checkExpired hw clock) (tries setup.config hw clock) ⟨leases, []⟩).2)) := by
  have both : Sum.elim (fun n => tryTurn setup localIp arp checkExpired hw clock (Sum.inl n))
      (fun addr => tryTurn setup localIp arp checkExpired hw clock (Sum.inr addr)) =
      tryTurn setup localIp arp checkExpired hw clock :=
    Sum.elim_comp_inl_inr (tryTurn setup localIp arp checkExpired hw clock)
  rw [findAddressLgdacom, drawThenCount_eq _ _ _ bounded enough ordered, both]
  rfl

/-! ## What is tried -/

/-- The address is tried, and where expired leases count it is tried at a time not before the call. -/
def Reached (config : ServerConfig) (checkExpired : Bool) (hw : Int32) (clock : Readings) (yiaddr : UInt32) : Prop :=
  ∃ t ∈ tries config hw clock, clock.address config hw t = ntohl yiaddr ∧
    (checkExpired = true → clock.entry ≤ clock.looked t)

theorem answer_eq_zero {l : List Try} {s : Searched}
    (zero : (answer ((firstSuccess (tryTurn setup localIp arp checkExpired hw clock) l s).1.map
      (clock.address setup.config hw), (firstSuccess (tryTurn setup localIp arp checkExpired hw clock) l s).2)).1 = 0) :
    (firstSuccess (tryTurn setup localIp arp checkExpired hw clock) l s).1 = none := by
  rcases searched : firstSuccess (tryTurn setup localIp arp checkExpired hw clock) l s with ⟨_ | t, s'⟩
  · rfl
  · rw [searched] at zero
    obtain ⟨-, before, -, succeeded⟩ := firstSuccess_eq_some (I := fun _ => True) (fun _ _ _ _ => trivial) trivial
      searched
    obtain ⟨passes, -⟩ := tryAddress_fst.1 (congrArg Prod.fst succeeded)
    exact absurd zero passes.ne_zero

/-! ## A table on which the search fails -/

/-- A slot that never expires. -/
def heldForever (yiaddr : UInt32) : Lease := ⟨blankChaddr, yiaddr, 0xFFFFFFFF, noHostname⟩

theorem leaseExpired_heldForever (now yiaddr : UInt32) : leaseExpired now (heldForever yiaddr) = false := by
  have top : (0xFFFFFFFF : UInt32).toNat = 4294967295 := rfl
  have small := now.toNat_lt
  have le : ¬ 0xFFFFFFFF < now := UInt32.not_lt.2 (UInt32.le_iff_toNat_le.2 (by omega))
  exact decide_eq_false le

/-- A table in which every address that is tried, except one, is held for ever. -/
def allBut (config : ServerConfig) (hw : Int32) (clock : Readings) (yiaddr : UInt32) : List Lease :=
  (((tries config hw clock).map fun t => htonl (clock.address config hw t)).filter (· ≠ yiaddr)).map heldForever

variable {yiaddr : UInt32} {leases : List Lease}

theorem mem_allBut {l : Lease} : l ∈ allBut setup.config hw clock yiaddr ↔
      ∃ t ∈ tries setup.config hw clock, htonl (clock.address setup.config hw t) ≠ yiaddr ∧
        heldForever (htonl (clock.address setup.config hw t)) = l := by
  simp only [allBut, List.mem_map, mem_filter, decide_eq_true_eq]
  constructor
  · rintro ⟨_, ⟨⟨t, tried, rfl⟩, ne⟩, rfl⟩
    exact ⟨t, tried, ne, rfl⟩
  · rintro ⟨t, tried, ne, rfl⟩
    exact ⟨_, ⟨⟨t, tried, rfl⟩, ne⟩, rfl⟩

theorem assignableAt_of_held {now : UInt32} (there : ∃ l ∈ leases, l.yiaddr = yiaddr)
    (live : ∀ l ∈ leases, l.yiaddr = yiaddr → leaseExpired now l = false) :
    assignableAt now checkExpired yiaddr leases = false := by
  unfold assignableAt
  split
  · rename_i absent
    obtain ⟨l, inside, same⟩ := there
    exact absurd same (findLeaseByYiaddr_eq_none.1 absent l inside)
  · rename_i lease found
    obtain ⟨inside, same⟩ := findLeaseByYiaddr_eq_some found
    rw [live lease inside same, Bool.and_false]

/-- If nobody answers and every address that is tried has a slot against it, the search fails. -/
theorem missed_of_held (held : ∀ t ∈ tries setup.config hw clock,
      assignableAt (clock.looked t) checkExpired (htonl (clock.address setup.config hw t)) leases = false) :
    (firstSuccess (tryTurn setup localIp (fun _ => false) checkExpired hw clock) (tries setup.config hw clock)
      ⟨leases, []⟩).1 = none := by
  refine firstSuccess_of_fails (I := fun s => s.leases = leases) (fun t tried s same => ⟨?_, ?_⟩) rfl
  · rw [Bool.eq_false_iff]
    intro succeeded
    obtain ⟨-, free⟩ := tryAddress_fst.1 succeeded
    rw [same, held t tried] at free
    cases free
  · rcases tryAddress_leases setup localIp (fun _ => false) checkExpired (clock.looked t) (clock.added t)
      (clock.address setup.config hw t) s with kept | ⟨answered, -⟩
    · exact kept.trans same
    · cases answered

theorem sub_one_lt_iff {a c : UInt32} (later : c < a) (now : UInt32) : a - 1 < now ↔ a ≤ now := by
  have positive : 1 ≤ a := by
    apply UInt32.le_iff_toNat_le.2
    exact Nat.lt_of_le_of_lt (Nat.zero_le _) (UInt32.lt_iff_toNat_lt.1 later)
  have one := UInt32.le_iff_toNat_le.1 positive
  rw [UInt32.lt_iff_toNat_lt, UInt32.le_iff_toNat_le, UInt32.toNat_sub_of_le _ _ positive]
  rw [UInt32.toNat_one] at one ⊢
  omega

variable (localIp) in
theorem exists_missed (unreached : ¬ Reached setup.config checkExpired hw clock yiaddr) :
    ∃ leases, Available checkExpired clock.entry yiaddr leases ∧
      (firstSuccess (tryTurn setup localIp (fun _ => false) checkExpired hw clock) (tries setup.config hw clock)
        ⟨leases, []⟩).1 = none := by
  have others : ∀ l ∈ allBut setup.config hw clock yiaddr, l.yiaddr ≠ yiaddr := by
    intro l inside
    obtain ⟨t, -, ne, rfl⟩ := mem_allBut.1 inside
    exact ne
  have forever : ∀ now, ∀ l ∈ allBut setup.config hw clock yiaddr, leaseExpired now l = false := by
    intro now l inside
    obtain ⟨t, -, -, rfl⟩ := mem_allBut.1 inside
    exact leaseExpired_heldForever now _
  by_cases tried : ∃ t ∈ tries setup.config hw clock, htonl (clock.address setup.config hw t) = yiaddr
  · -- it is tried too early only: a lease that runs out just before the call stands against it
    have early : ∀ t ∈ tries setup.config hw clock, htonl (clock.address setup.config hw t) = yiaddr →
        checkExpired = true ∧ clock.looked t < clock.entry := by
      intro t inside same
      by_contra late
      refine unreached ⟨t, inside, by rw [← same, ntohl_htonl], fun counts => ?_⟩
      exact UInt32.not_lt.1 fun lt => late ⟨counts, lt⟩
    obtain ⟨t₀, inside₀, same₀⟩ := tried
    obtain ⟨counts, lt₀⟩ := early t₀ inside₀ same₀
    have before := fun now => sub_one_lt_iff lt₀ now
    refine ⟨allBut setup.config hw clock yiaddr ++ [⟨blankChaddr, yiaddr, clock.entry - 1, noHostname⟩], ?_, ?_⟩
    · subst counts
      intro l inside same
      rcases mem_append.1 inside with other | own
      · exact absurd same (others l other)
      · rw [mem_singleton.1 own]
        simpa [leaseExpired] using (before clock.entry).2 (UInt32.le_refl _)
    · refine missed_of_held fun t inside => assignableAt_of_held ?_ ?_
      · by_cases same : htonl (clock.address setup.config hw t) = yiaddr
        · exact ⟨_, mem_append_right _ (mem_singleton_self _), same.symm⟩
        · exact ⟨_, mem_append_left _ (mem_allBut.2 ⟨t, inside, same, rfl⟩), rfl⟩
      · intro l there same
        rcases mem_append.1 there with other | own
        · exact forever _ l other
        · rw [mem_singleton.1 own] at same ⊢
          have lt := (early t inside same.symm).2
          have le : ¬ clock.entry - 1 < clock.looked t := fun past => absurd ((before _).1 past) (UInt32.not_le.2 lt)
          simpa [leaseExpired] using le
  · refine ⟨allBut setup.config hw clock yiaddr, ?_, ?_⟩
    · cases checkExpired with
      | false => exact others
      | true => exact fun l inside same => absurd same (others l inside)
    · refine missed_of_held fun t inside => assignableAt_of_held ?_ fun l there _ => forever _ l there
      exact ⟨_, mem_allBut.2 ⟨t, inside, fun same => tried ⟨t, inside, same⟩, rfl⟩, rfl⟩

end

/-- **Completeness of the random-start search.**  `find_address` returns 0 only if no suitable
address was available, for all tables and all answers to probes, exactly if every address that may
be given away is reached. -/
theorem random_search_complete_iff (setup : Setup) (localIp : UInt32) (checkExpired : Bool) (hw : Int32)
    (clock : Readings) (uninitialised : UInt32) (ordered : ntohl setup.config.start ≤ ntohl setup.config.stop)
    (bounded : ntohl setup.config.stop < 0xFFFFFFFF) : (∀ leases arp, ∃ ret found,
      (∀ fuel, 2 ^ 32 < fuel →
        findAddressLgdacom setup localIp arp checkExpired hw clock uninitialised fuel leases = some (ret, found)) ∧
      (ret = 0 → ∀ yiaddr, Suitable setup localIp arp yiaddr → ¬ Available checkExpired clock.entry yiaddr leases)) ↔
      ∀ yiaddr, Suitable setup localIp (fun _ => false) yiaddr → Reached setup.config checkExpired hw clock yiaddr := by
  constructor
  · intro complete yiaddr suitable
    by_contra unreached
    obtain ⟨leases, available, missed⟩ := exists_missed localIp unreached
    obtain ⟨ret, found, returns, sound⟩ := complete leases fun _ => false
    have returned := returns (2 ^ 32 + 1) (Nat.lt_succ_self _)
    rw [findAddressLgdacom_eq ordered bounded uninitialised (Nat.lt_succ_self _), missed] at returned
    cases returned
    exact sound rfl yiaddr suitable available
  · intro reached leases arp
    refine ⟨_, _, fun fuel enough => findAddressLgdacom_eq ordered bounded uninitialised enough leases, ?_⟩
    intro zero yiaddr suitable
    refine not_available_of_missed (answer_eq_zero zero) suitable (reached yiaddr ?_)
    exact { suitable with silent := rfl }

/-- A clock that stands still. -/
def stopped (time : UInt32) : Readings := ⟨time, fun _ => time, fun _ => time, fun _ => time⟩

open Sample

/-- The offset is 0, so the second loop covers the pool: .20 is held, and the expired .21 is found. -/
theorem random_search_from_start : ∃ ret found,
      (∀ fuel, 2 ^ 32 < fuel →
        findAddressLgdacom ⟨config, []⟩ (ip 1) (fun _ => false) true 0 (stopped 1000) 0 fuel
          [⟨mac 1, ip 20, 5000, noHostname⟩, ⟨mac 2, ip 21, 500, noHostname⟩] =
          some (ret, found)) ∧
      ret ≠ 0 := by
  have covered : ∀ yiaddr, Suitable ⟨config, []⟩ (ip 1) (fun _ => false) yiaddr →
      Reached config true 0 (stopped 1000) yiaddr := by
    intro yiaddr suitable
    have first : randomAddress config 0 1000 = ntohl config.start := by decide
    have inside : ntohl config.start ≤ ntohl yiaddr ∧ ntohl yiaddr ≤ ntohl config.stop := by
      simpa [ServerConfig.inPool] using (suitable_iff.1 suitable).1
    refine ⟨Sum.inr (ntohl yiaddr), mem_append_right _ (List.mem_map_of_mem (mem_upTo.2 ⟨?_, inside.2⟩)), rfl,
      fun _ => UInt32.le_refl _⟩
    show randomAddress config 0 1000 ≤ ntohl yiaddr
    exact inside.1
  obtain ⟨ret, found, returns, complete⟩ := (random_search_complete_iff ⟨config, []⟩ (ip 1) true 0
    (stopped 1000) 0 (by decide) (by decide)).2 covered
    [⟨mac 1, ip 20, 5000, noHostname⟩, ⟨mac 2, ip 21, 500, noHostname⟩] fun _ => false
  refine ⟨ret, found, returns, fun zero => complete zero (ip 21) ?_ ?_⟩
  · exact ⟨by decide, by decide, by decide, by decide, by simp, by decide⟩
  · show ∀ l ∈ [(⟨mac 1, ip 20, 5000, noHostname⟩), ⟨mac 2, ip 21, 500, noHostname⟩],
      l.yiaddr = ip 21 → leaseExpired 1000 l = true
    decide

/-- The offset is 1, so both loops start at .21, which is held: .20 is free, and not tried. -/
theorem start_of_pool_missed :
    let setup : Setup := ⟨config, []⟩
    let leases : List Lease := [⟨mac 1, ip 21, 5000, noHostname⟩, Lease.zero]
    findAddressLgdacom setup (ip 1) (fun _ => false) false 0 (stopped 1001) 0 4 leases = some (0, ⟨leases, []⟩) ∧
      Suitable setup (ip 1) (fun _ => false) (ip 20) ∧
      Available false 1001 (ip 20) leases := by
  refine ⟨by decide, ⟨by decide, by decide, by decide, by decide, by simp, by decide⟩, ?_⟩
  show ∀ l ∈ [(⟨mac 1, ip 21, 5000, noHostname⟩), Lease.zero], l.yiaddr ≠ ip 20
  decide

end RouterApps.Udhcpd
