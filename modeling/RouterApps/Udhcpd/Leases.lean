/-
# Udhcpd.Leases -- the lease table of the DHCP server (leases.c, leases.h)

The server keeps two arrays.  `leases` holds the addresses it has offered or
leased, one slot each; a slot with `yiaddr = 0` is unused, and a slot with a blank
hardware address keeps an address out of circulation.  `static_leases` holds the
administrator's reservations and never changes while the server runs.

The table functions are pure here: they take the table and the reading of
`time(0)`, and return the new table.  A pointer into the table that the source
only reads is the slot itself; a pointer it writes through is an index, or the
predicate whose first match it is.
-/
import RouterApps.CLib.Memory
import RouterApps.Theory.Table

namespace RouterApps.Udhcpd

open CLib Theory.Table List

/-! ## Data -/

/-- A hardware address field: `u_int8_t chaddr[16]`. -/
abbrev Chaddr := Block 16

def blankChaddr : Chaddr := Block.zero 16

def hostnameLen : Nat := 24

/-- `struct dhcpOfferedAddr`; `yiaddr` is in network order. -/
structure Lease where
  chaddr : Chaddr
  yiaddr : UInt32
  expires : UInt32
  hostname : CharArray hostnameLen
deriving DecidableEq

def noHostname : CharArray hostnameLen := ⟨CString.empty, by decide⟩

/-- What `memset` leaves of a slot. -/
def Lease.zero : Lease := ⟨blankChaddr, 0, 0, noHostname⟩

/-- `struct dhcpOfferedStaticAddr`. -/
structure StaticLease where
  chaddr : Chaddr
  yiaddr : UInt32
  expires : UInt32
deriving DecidableEq

def StaticLease.zero : StaticLease := ⟨blankChaddr, 0, 0⟩

/-- The fields of `struct server_config_t` that the server's decisions read.  `stop` is the source's
`end`.  Addresses are in network order, and `unsigned long` has 32 bits. -/
structure ServerConfig where
  server : UInt32
  start : UInt32
  stop : UInt32
  lease : UInt32
  maxLeases : Nat
  remaining : Bool
  declineTime : UInt32
  conflictTime : UInt32
  offerTime : UInt32
  minLease : UInt32
  maxStatic : Nat
  sysNetmask : UInt32
deriving DecidableEq

/-- The pool, compared as addresses. -/
def ServerConfig.inPool (config : ServerConfig) (yiaddr : UInt32) : Bool :=
  ntohl config.start ≤ ntohl yiaddr && ntohl yiaddr ≤ ntohl config.stop

/-! ## The dynamic table -/

/-- The test of `clear_lease`: a hardware address or an address matches only when
it is not zero. -/
def clearMatches (chaddr : Chaddr) (yiaddr : UInt32) (lease : Lease) : Bool :=
  (chaddr ≠ blankChaddr && lease.chaddr = chaddr) || (yiaddr ≠ 0 && lease.yiaddr = yiaddr)

/-- Clear every lease out that `chaddr` or `yiaddr` matches and is nonzero. -/
def clearLease (chaddr : Chaddr) (yiaddr : UInt32) (leases : List Lease) : List Lease :=
  leases.map fun lease => if clearMatches chaddr yiaddr lease then Lease.zero else lease

def leaseExpired (now : UInt32) (lease : Lease) : Bool := lease.expires < now

/-- The loop of `oldest_expired_lease`: `oldestLease` is the smallest expiry so far, `oldest` the
slot that has it. -/
def oldestExpiredLeaseFrom : List Lease → Nat → UInt32 → Option Nat → Option Nat
  | [], _, _, oldest => oldest
  | lease :: rest, i, oldestLease, oldest =>
    if oldestLease > lease.expires then
      oldestExpiredLeaseFrom rest (i + 1) lease.expires (some i)
    else oldestExpiredLeaseFrom rest (i + 1) oldestLease oldest

/-- Find the oldest expired lease, none if there are no expired leases. -/
def oldestExpiredLease (now : UInt32) (leases : List Lease) : Option Nat :=
  oldestExpiredLeaseFrom leases 0 now none

/-- The first component is the slot used, `none` for the NULL of a table without an expired slot. -/
def addLease (now : UInt32) (chaddr : Chaddr) (yiaddr lease : UInt32)
    (hostname : CharArray hostnameLen) (leases : List Lease) : Option Nat × List Lease :=
  let cleared := clearLease chaddr yiaddr leases
  match oldestExpiredLease now cleared with
  | some oldest => (some oldest, cleared.set oldest ⟨chaddr, yiaddr, now + lease, hostname⟩)
  | none => (none, cleared)

def hasChaddr (chaddr : Chaddr) (lease : Lease) : Bool := lease.chaddr = chaddr

def hasYiaddr (yiaddr : UInt32) (lease : Lease) : Bool := lease.yiaddr = yiaddr

/-- Find the first lease that matches `chaddr`. -/
def findLeaseByChaddr (chaddr : Chaddr) (leases : List Lease) : Option Lease :=
  leases.find? (hasChaddr chaddr)

/-- Find the first lease that matches `yiaddr`. -/
def findLeaseByYiaddr (yiaddr : UInt32) (leases : List Lease) : Option Lease :=
  leases.find? (hasYiaddr yiaddr)

/-! ## The reservations -/

/-- The reserved address of a client, 0 if it has none. -/
def findStaticLeaseByChaddr (chaddr : Chaddr) (static : List StaticLease) : UInt32 :=
  match static.find? fun lease => decide (lease.chaddr = chaddr) with
  | some lease => lease.yiaddr
  | none => 0

def findStaticLeaseByYiaddr (yiaddr : UInt32) (static : List StaticLease) : Option StaticLease :=
  static.find? fun lease => decide (lease.yiaddr = yiaddr)

/-! ## What the table functions do -/

variable {chaddr : Chaddr} {leases : List Lease} {lease : Lease} {yiaddr : UInt32}

theorem findLeaseByChaddr_eq_some (found : findLeaseByChaddr chaddr leases = some lease) :
    lease ∈ leases ∧ lease.chaddr = chaddr :=
  ⟨mem_of_find?_eq_some found, by simpa [hasChaddr] using find?_some found⟩

theorem findLeaseByYiaddr_eq_some (found : findLeaseByYiaddr yiaddr leases = some lease) :
    lease ∈ leases ∧ lease.yiaddr = yiaddr :=
  ⟨mem_of_find?_eq_some found, by simpa [hasYiaddr] using find?_some found⟩

theorem findLeaseByChaddr_eq_none :
    findLeaseByChaddr chaddr leases = none ↔ ∀ lease ∈ leases, lease.chaddr ≠ chaddr := by
  simp [findLeaseByChaddr, hasChaddr]

theorem findLeaseByYiaddr_eq_none :
    findLeaseByYiaddr yiaddr leases = none ↔ ∀ lease ∈ leases, lease.yiaddr ≠ yiaddr := by
  simp [findLeaseByYiaddr, hasYiaddr]

/-- A slot that `clear_lease` leaves alone. -/
def Apart (chaddr : Chaddr) (yiaddr : UInt32) (lease : Lease) : Prop :=
  (chaddr ≠ blankChaddr → lease.chaddr ≠ chaddr) ∧ (yiaddr ≠ 0 → lease.yiaddr ≠ yiaddr)

theorem clearMatches_eq_false : clearMatches chaddr yiaddr lease = false ↔ Apart chaddr yiaddr lease := by
  simp [clearMatches, Apart]

theorem mem_clearLease (member : lease ∈ clearLease chaddr yiaddr leases) :
    lease = Lease.zero ∨ lease ∈ leases ∧ Apart chaddr yiaddr lease := by
  obtain ⟨old, inside, rfl⟩ := mem_map.1 member
  split
  · exact .inl rfl
  · rename_i no
    exact .inr ⟨inside, clearMatches_eq_false.1 (by simpa using no)⟩

theorem mem_clearLease_of_apart (member : lease ∈ leases) (apart : Apart chaddr yiaddr lease) :
    lease ∈ clearLease chaddr yiaddr leases :=
  mem_map.2 ⟨lease, member, by simp [clearMatches_eq_false.2 apart]⟩

theorem zero_mem_clearLease (member : lease ∈ leases) (near : ¬ Apart chaddr yiaddr lease) :
    Lease.zero ∈ clearLease chaddr yiaddr leases := by
  refine mem_map.2 ⟨lease, member, ?_⟩
  rw [← clearMatches_eq_false] at near
  simp [near]

theorem clearLease_of_apart (apart : ∀ lease ∈ leases, Apart chaddr yiaddr lease) :
    clearLease chaddr yiaddr leases = leases := by
  have same : ∀ lease ∈ leases,
      (if clearMatches chaddr yiaddr lease then Lease.zero else lease) = lease := fun lease member => by
    simp [clearMatches_eq_false.2 (apart lease member)]
  exact (map_congr_left same).trans (map_id leases)

/-- The accumulator when nothing is older, and otherwise the first slot with the smallest expiry. -/
theorem oldestExpiredLeaseFrom_spec (leases : List Lease) (i : Nat) (bound : UInt32) (oldest : Option Nat) :
    (oldestExpiredLeaseFrom leases i bound oldest = oldest ∧ ∀ l ∈ leases, bound ≤ l.expires) ∨
      ∃ j l, oldestExpiredLeaseFrom leases i bound oldest = some (i + j) ∧ leases[j]? = some l ∧
        l.expires < bound ∧ (∀ l' ∈ leases, l.expires ≤ l'.expires) ∧
        ∀ j' l', j' < j → leases[j']? = some l' → l.expires < l'.expires := by
  induction leases generalizing i bound oldest with
  | nil => exact .inl ⟨rfl, by simp⟩
  | cons lease rest ih =>
    simp only [oldestExpiredLeaseFrom]
    split
    · rename_i older
      right
      rcases ih (i + 1) lease.expires (some i) with ⟨same, least⟩ | ⟨j, l, h, at', lt, least, first⟩
      · exact ⟨0, lease, by simpa using same, rfl, older, by simpa using least, by simp⟩
      · refine ⟨j + 1, l, by rw [h]; congr 1; omega, by exact at', UInt32.lt_trans lt older, ?_, ?_⟩
        · simpa using ⟨UInt32.le_of_lt lt, least⟩
        · rintro (_ | j') l' lower found
          · cases found; exact lt
          · exact first j' l' (by omega) found
    · rename_i younger
      have younger : bound ≤ lease.expires := by simpa using younger
      rcases ih (i + 1) bound oldest with ⟨same, least⟩ | ⟨j, l, h, at', lt, least, first⟩
      · exact .inl ⟨same, by simpa using ⟨younger, least⟩⟩
      · refine .inr ⟨j + 1, l, by rw [h]; congr 1; omega, by exact at', lt, ?_, ?_⟩
        · simpa using ⟨UInt32.le_of_lt (UInt32.lt_of_lt_of_le lt younger), least⟩
        · rintro (_ | j') l' lower found
          · cases found; exact UInt32.lt_of_lt_of_le lt younger
          · exact first j' l' (by omega) found

variable {now : UInt32}

theorem oldestExpiredLease_eq_none : oldestExpiredLease now leases = none ↔ ∀ l ∈ leases, now ≤ l.expires := by
  rcases oldestExpiredLeaseFrom_spec leases 0 now none with ⟨same, all⟩ | ⟨j, l, h, found, lt, -, -⟩
  · exact ⟨fun _ => all, fun _ => same⟩
  · constructor
    · intro none
      rw [oldestExpiredLease, h] at none
      cases none
    · intro all
      exact absurd lt (UInt32.not_lt.2 (all l (mem_of_getElem? found)))

theorem oldestExpiredLease_eq_some {i : Nat} (chosen : oldestExpiredLease now leases = some i) :
    ∃ l, leases[i]? = some l ∧ l.expires < now ∧ ∀ l' ∈ leases, l.expires ≤ l'.expires := by
  rcases oldestExpiredLeaseFrom_spec leases 0 now none with ⟨same, -⟩ | ⟨j, l, h, found, lt, least, -⟩
  · rw [oldestExpiredLease, same] at chosen
    cases chosen
  · rw [oldestExpiredLease, h] at chosen
    simp only [Nat.zero_add, Option.some.injEq] at chosen
    subst chosen
    exact ⟨l, found, lt, least⟩

section

variable {now : UInt32} {yiaddr lease : UInt32} {hostname : CharArray hostnameLen}

/-- One expired slot of the cleared table is rewritten, or there is none. -/
theorem addLease_cases (now : UInt32) (chaddr : Chaddr) (yiaddr lease : UInt32)
    (hostname : CharArray hostnameLen) (leases : List Lease) :
    (∃ i old, addLease now chaddr yiaddr lease hostname leases =
        (some i, (clearLease chaddr yiaddr leases).set i ⟨chaddr, yiaddr, now + lease, hostname⟩) ∧
        (clearLease chaddr yiaddr leases)[i]? = some old ∧ old.expires < now ∧
        ∀ l ∈ clearLease chaddr yiaddr leases, old.expires ≤ l.expires) ∨
      (addLease now chaddr yiaddr lease hostname leases = (none, clearLease chaddr yiaddr leases) ∧
        ∀ l ∈ clearLease chaddr yiaddr leases, now ≤ l.expires) := by
  cases chosen : oldestExpiredLease now (clearLease chaddr yiaddr leases) with
  | some i =>
    obtain ⟨old, found, lt, least⟩ := oldestExpiredLease_eq_some chosen
    exact .inl ⟨i, old, by simp [addLease, chosen], found, lt, least⟩
  | none => exact .inr ⟨by simp [addLease, chosen], oldestExpiredLease_eq_none.1 chosen⟩

variable {l : Lease}

theorem mem_addLease (member : l ∈ (addLease now chaddr yiaddr lease hostname leases).2) :
    l = ⟨chaddr, yiaddr, now + lease, hostname⟩ ∨ l = Lease.zero ∨ l ∈ leases ∧ Apart chaddr yiaddr l := by
  rcases addLease_cases now chaddr yiaddr lease hostname leases with ⟨i, old, h, -⟩ | ⟨h, -⟩
  · rw [h] at member
    rcases mem_or_eq_of_mem_set member with inside | rfl
    · exact .inr (mem_clearLease inside)
    · exact .inl rfl
  · rw [h] at member
    exact .inr (mem_clearLease member)

theorem addLease_keeps (member : l ∈ leases) (apart : Apart chaddr yiaddr l)
    (live : now ≤ l.expires) : l ∈ (addLease now chaddr yiaddr lease hostname leases).2 := by
  have inside := mem_clearLease_of_apart member apart
  rcases addLease_cases now chaddr yiaddr lease hostname leases with ⟨i, old, h, found, lt, -⟩ | ⟨h, -⟩
  · rw [h]
    refine mem_set_of_ne inside found ?_
    rintro rfl
    exact absurd lt (UInt32.not_lt.2 live)
  · rwa [h]

theorem addLease_stores {i : Nat} {leases' : List Lease}
    (added : addLease now chaddr yiaddr lease hostname leases = (some i, leases')) :
    ⟨chaddr, yiaddr, now + lease, hostname⟩ ∈ leases' := by
  rcases addLease_cases now chaddr yiaddr lease hostname leases with ⟨j, old, h, found, -⟩ | ⟨h, -⟩
  · rw [h] at added
    cases added
    obtain ⟨inBounds, -⟩ := List.getElem?_eq_some_iff.1 found
    exact mem_set inBounds _
  · rw [h] at added
    cases added

/-- No slot is expired and none is cleared (a cleared slot counts as expired after the epoch's first
second). -/
theorem addLease_eq_none : (addLease now chaddr yiaddr lease hostname leases).1 = none ↔
      now = 0 ∨ ∀ l ∈ leases, now ≤ l.expires ∧ Apart chaddr yiaddr l := by
  have full : (addLease now chaddr yiaddr lease hostname leases).1 = none ↔
      ∀ l ∈ clearLease chaddr yiaddr leases, now ≤ l.expires := by
    rcases addLease_cases now chaddr yiaddr lease hostname leases with
      ⟨i, old, h, found, lt, -⟩ | ⟨h, all⟩
    · rw [h]
      simp only [reduceCtorEq, false_iff, not_forall, UInt32.not_le]
      exact ⟨old, mem_of_getElem? found, lt⟩
    · rw [h]
      exact ⟨fun _ => all, fun _ => rfl⟩
  rw [full]
  constructor
  · intro all
    by_cases zero : now = 0
    · exact .inl zero
    · refine .inr fun l member => ?_
      by_cases apart : Apart chaddr yiaddr l
      · exact ⟨all l (mem_clearLease_of_apart member apart), apart⟩
      · have := all Lease.zero (zero_mem_clearLease member apart)
        exact absurd (UInt32.le_zero_iff.1 this) zero
  · rintro (rfl | all) l member
    · exact UInt32.zero_le
    · rw [clearLease_of_apart fun l inside => (all l inside).2] at member
      exact (all l member).1

theorem addLease_getElem?_of_apart {j : Nat} (at_ : leases[j]? = some l)
    (apart : Apart chaddr yiaddr l) (live : now ≤ l.expires) :
    (addLease now chaddr yiaddr lease hostname leases).2[j]? = some l := by
  have kept : (clearLease chaddr yiaddr leases)[j]? = some l := by
    rw [clearLease, getElem?_map, at_, Option.map_some, clearMatches_eq_false.2 apart]
    rfl
  rcases addLease_cases now chaddr yiaddr lease hostname leases with ⟨i, old, h, found, lt, -⟩ | ⟨h, -⟩
  · rw [h]
    -- the slot that is used is an expired one
    have ne : i ≠ j := by
      rintro rfl
      rw [kept] at found
      cases found
      exact absurd lt (UInt32.not_lt.2 live)
    rw [getElem?_set_ne ne]
    exact kept
  · rw [h]
    exact kept

end

/-- **Adding a lease.**  A failed call leaves the table as before; it does not fail if the hardware
address or the address is not zero and has a slot; and every unexpired slot that matches neither
stays as it is. -/
theorem add_lease_all_or_nothing (now : UInt32) (chaddr : Chaddr) (yiaddr lease : UInt32)
    (hostname : CharArray hostnameLen) (leases : List Lease) (started : 0 < now) :
    ((addLease now chaddr yiaddr lease hostname leases).1 = none →
        (addLease now chaddr yiaddr lease hostname leases).2 = leases) ∧
      ((chaddr ≠ blankChaddr ∧ ∃ l ∈ leases, l.chaddr = chaddr) ∨ (yiaddr ≠ 0 ∧ ∃ l ∈ leases, l.yiaddr = yiaddr) →
        (addLease now chaddr yiaddr lease hostname leases).1 ≠ none) ∧
      ∀ i, (addLease now chaddr yiaddr lease hostname leases).1 = some i →
        ∀ (j : Nat) (l : Lease), leases[j]? = some l → leaseExpired now l = false → Apart chaddr yiaddr l →
          (addLease now chaddr yiaddr lease hostname leases).2[j]? = some l := by
  have full : (addLease now chaddr yiaddr lease hostname leases).1 = none →
      ∀ l ∈ leases, now ≤ l.expires ∧ Apart chaddr yiaddr l := by
    intro refused
    rcases addLease_eq_none.1 refused with zero | all
    · exact absurd (zero ▸ started) (UInt32.lt_irrefl 0)
    · exact all
  refine ⟨?_, ?_, ?_⟩
  · intro refused
    rcases addLease_cases now chaddr yiaddr lease hostname leases with ⟨i, old, h, -⟩ | ⟨h, -⟩
    · rw [h] at refused
      cases refused
    · rw [h]
      exact clearLease_of_apart fun l inside => (full refused l inside).2
  · rintro (⟨nonzero, l, inside, same⟩ | ⟨nonzero, l, inside, same⟩) refused
    · exact (full refused l inside).2.1 nonzero same
    · exact (full refused l inside).2.2 nonzero same
  · intro i _ j l at_ live apart
    apply addLease_getElem?_of_apart at_ apart
    simpa [leaseExpired] using live

/-- A table whose only slot is in use, and a new address. -/
theorem add_lease_to_full_table : (0 : UInt32) < 1000 ∧
      (addLease 1000 blankChaddr 9 60 noHostname [⟨blankChaddr, 7, 2000, noHostname⟩]).2 =
        [⟨blankChaddr, 7, 2000, noHostname⟩] :=
  ⟨by decide, (add_lease_all_or_nothing 1000 blankChaddr 9 60 noHostname _ (by decide)).1 (by decide)⟩

end RouterApps.Udhcpd
