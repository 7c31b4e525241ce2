/-
# Udhcpd.StaticFile -- the static lease file, from the library to the server

The library writes the reservations as records of 24 bytes, and the server reads them
into its table when it starts (files.c, leases.c).  `add_static_lease` takes the last
free slot, so the table fills from its end; with distinct addresses no slot is used
twice.

Both sides agree on the layout of the record but not on its lease time: the library
writes the word as it lies in memory, the server takes it for network order.
-/
import RouterApps.Dhcplib.Array
import RouterApps.Udhcpd.Server

namespace RouterApps.Udhcpd

open CLib Dhcplib List

/-! ## The server's side -/

/-- The loop of `add_static_lease`: the last slot without an address, from index `i`. -/
def lastFreeFrom : List StaticLease → Nat → Option Nat → Option Nat
  | [], _, new => new
  | lease :: rest, i, new => lastFreeFrom rest (i + 1) (if lease.yiaddr = 0 then some i else new)

/-- `none` for the NULL of a full table. -/
def addStaticLease (now : UInt32) (chaddr : Chaddr) (yiaddr lease : UInt32) (static : List StaticLease) :
    Option (List StaticLease) :=
  (lastFreeFrom static 0 none).map fun new => static.set new ⟨chaddr, yiaddr, now + lease⟩

/-- The loop of `read_static_leases` over the records of the file. -/
def readStaticLeasesLoop (config : ServerConfig) (now : UInt32) :
    List StaticLease → Nat → List StaticLease → List StaticLease
  | [], _, static => static
  | lease :: leases, i, static =>
    if i < config.maxStatic then
      match addStaticLease now lease.chaddr lease.yiaddr (ntohl lease.expires) static with
      | some static => readStaticLeasesLoop config now leases (i + 1) static
      | none => static
    else static

/-- The table `main` starts with: `malloc`, `memset`, `read_static_leases`. -/
def readStaticLeases (config : ServerConfig) (now : UInt32) (file : Option (List UInt8)) : List StaticLease :=
  readStaticLeasesLoop config now (staticLeases file) 0 (replicate config.maxStatic StaticLease.zero)

/-! ## What the server reads -/

/-- What the server makes of a record. -/
def serverLease (now : UInt32) (lease : StaticLease) : StaticLease :=
  ⟨lease.chaddr, lease.yiaddr, now + ntohl lease.expires⟩

variable {config : ServerConfig} (now : UInt32) (lease : StaticLease)

@[simp] theorem serverLease_yiaddr : (serverLease now lease).yiaddr = lease.yiaddr := by
  -- With `lease` a variable the kernel would compare the two records, lease times included.
  obtain ⟨chaddr, yiaddr, expires⟩ := lease
  rfl

@[simp] theorem serverLease_chaddr : (serverLease now lease).chaddr = lease.chaddr := by
  obtain ⟨chaddr, yiaddr, expires⟩ := lease
  rfl

variable {m : Nat}

section

variable {used : List StaticLease}

theorem lastFreeFrom_used (full : ∀ l ∈ used, l.yiaddr ≠ 0) (i : Nat) (new : Option Nat) :
    lastFreeFrom used i new = new := by
  induction used generalizing i with
  | nil => rfl
  | cons l used ih =>
    have here := full l mem_cons_self
    rw [lastFreeFrom, if_neg here]
    exact ih (fun l inside => full l (mem_cons_of_mem _ inside)) (i + 1)

/-- With the free slots in front, the last free slot is the one before the used ones. -/
theorem lastFreeFrom_free (full : ∀ l ∈ used, l.yiaddr ≠ 0) (m i : Nat) (new : Option Nat) :
    lastFreeFrom (replicate (m + 1) StaticLease.zero ++ used) i new = some (i + m) := by
  induction m generalizing i new with
  | zero =>
    exact lastFreeFrom_used full (i + 1) (some i)
  | succ m ih =>
    rw [replicate_succ, cons_append, lastFreeFrom, ih]
    congr 1
    omega

theorem addStaticLease_eq (full : ∀ l ∈ used, l.yiaddr ≠ 0) (m : Nat) (now : UInt32) (chaddr : Chaddr)
    (yiaddr lease : UInt32) : addStaticLease now chaddr yiaddr lease (replicate (m + 1) StaticLease.zero ++ used) =
      some (replicate m StaticLease.zero ++ ⟨chaddr, yiaddr, now + lease⟩ :: used) := by
  have slot : (replicate (m + 1) StaticLease.zero ++ used).set m ⟨chaddr, yiaddr, now + lease⟩ =
      replicate m StaticLease.zero ++ ⟨chaddr, yiaddr, now + lease⟩ :: used := by
    rw [replicate_succ', append_assoc]
    simp
  rw [addStaticLease, lastFreeFrom_free full, Nat.zero_add, Option.map_some, slot]

theorem readStaticLeasesLoop_eq {leases : List StaticLease}
    (addressed : ∀ l ∈ leases, l.yiaddr ≠ 0) (full : ∀ l ∈ used, l.yiaddr ≠ 0) {i : Nat}
    (room : leases.length ≤ m) (slots : i + m = config.maxStatic) :
    readStaticLeasesLoop config now leases i (replicate m StaticLease.zero ++ used) =
      replicate (m - leases.length) StaticLease.zero ++ ((leases.map (serverLease now)).reverse ++ used) := by
  induction leases generalizing m i used with
  | nil => rfl
  | cons lease leases ih =>
    simp only [length_cons] at room
    obtain ⟨m, rfl⟩ : ∃ k, m = k + 1 := ⟨m - 1, by omega⟩
    have here := addressed lease mem_cons_self
    have full' : ∀ l ∈ serverLease now lease :: used, l.yiaddr ≠ 0 := by
      intro l member
      rcases mem_cons.1 member with rfl | inside
      · rw [serverLease_yiaddr]
        exact here
      · exact full l inside
    have taken : addStaticLease now lease.chaddr lease.yiaddr (ntohl lease.expires)
        (replicate (m + 1) StaticLease.zero ++ used) =
        some (replicate m StaticLease.zero ++ serverLease now lease :: used) := by
      rw [addStaticLease_eq full, serverLease]
    have slot : i < config.maxStatic := by omega
    simp only [readStaticLeasesLoop, if_pos slot, taken]
    have slots' : i + 1 + m = config.maxStatic := by omega
    have rest := ih (fun l inside => addressed l (mem_cons_of_mem _ inside)) full' (Nat.le_of_succ_le_succ room) slots'
    simp only [map_cons, reverse_cons, append_assoc, length_cons, Nat.add_sub_add_right]
    exact rest

end

variable {leases : List StaticLease}

/-- **The server's table** has the records of the file in its last slots, in reverse. -/
theorem readStaticLeases_eq (addressed : ∀ l ∈ leases, l.yiaddr ≠ 0) (room : leases.length ≤ config.maxStatic) :
    readStaticLeases config now (some (leases.map staticRecord).flatten) =
      replicate (config.maxStatic - leases.length) StaticLease.zero ++ (leases.map (serverLease now)).reverse := by
  have unused : ∀ l ∈ ([] : List StaticLease), l.yiaddr ≠ 0 := by simp
  have loop := readStaticLeasesLoop_eq now addressed unused room (Nat.zero_add _)
  rw [readStaticLeases, staticLeases_write]
  rw [append_nil, append_nil] at loop
  exact loop

/-! ## What the library meant -/

/-- The slots in use are the entries, each valid for its lease time from now. -/
def TableOf (now : UInt32) (leases table : List StaticLease) : Prop :=
  ∀ slot : StaticLease, slot ∈ table ∧ slot.yiaddr ≠ 0 ↔
    ∃ lease ∈ leases, slot = ⟨lease.chaddr, lease.yiaddr, now + lease.expires⟩

theorem mem_table {now : UInt32} (addressed : ∀ l ∈ leases, l.yiaddr ≠ 0) (slot : StaticLease) :
    slot ∈ replicate m StaticLease.zero ++ (leases.map (serverLease now)).reverse ∧ slot.yiaddr ≠ 0 ↔
      ∃ lease ∈ leases, slot = serverLease now lease := by
  constructor
  · rintro ⟨member, used⟩
    rcases mem_append.1 member with free | inside
    · exact absurd (by rw [eq_of_mem_replicate free]; rfl) used
    · obtain ⟨lease, leaseIn, rfl⟩ := mem_map.1 (mem_reverse.1 inside)
      exact ⟨lease, leaseIn, rfl⟩
  · rintro ⟨lease, leaseIn, rfl⟩
    refine ⟨mem_append_right _ (mem_reverse.2 (mem_map_of_mem leaseIn)), ?_⟩
    rw [serverLease_yiaddr]
    exact addressed lease leaseIn

/-- What the server loads agrees with the entries when its conversion of the lease time
changes none of them. -/
theorem tableOf_iff {now : UInt32}
    (addressed : ∀ l ∈ leases, l.yiaddr ≠ 0) (distinct : (leases.map StaticLease.yiaddr).Nodup) :
    TableOf now leases (replicate m StaticLease.zero ++ (leases.map (serverLease now)).reverse) ↔
      ∀ l ∈ leases, ntohl l.expires = l.expires := by
  constructor
  · intro agrees lease leaseIn
    obtain ⟨other, otherIn, same⟩ := (agrees (serverLease now lease)).1
      ((mem_table addressed _).2 ⟨lease, leaseIn, rfl⟩)
    obtain ⟨-, address, expiry⟩ := StaticLease.mk.inj same
    obtain rfl := inj_on_of_nodup_map distinct leaseIn otherIn address
    exact (UInt32.add_right_inj now).1 expiry
  · intro swapped slot
    rw [mem_table addressed]
    constructor
    all_goals
      rintro ⟨lease, leaseIn, rfl⟩
      exact ⟨lease, leaseIn, by rw [serverLease, swapped lease leaseIn]⟩

/-- **The static lease file means the same to the server** exactly when every lease time reads the
same with its bytes reversed. -/
theorem static_file_means_same_iff (config : ServerConfig) (now : UInt32) (leaseArr : List LeaseInfo)
    (count : Nat) (leases : List StaticLease) (inside : count ≤ leaseArr.length)
    (readable : (leaseArr.take count).mapM staticLease = some leases)
    (room : leases.length ≤ config.maxStatic) (addressed : ∀ l ∈ leases, l.yiaddr ≠ 0)
    (distinct : (leases.map StaticLease.yiaddr).Nodup) :
    ∃ file table, dhcpdSetAllStaticLease leaseArr count = some file ∧
      readStaticLeases config now (some file) = table ∧
      (∀ chaddr yiaddr, (∃ slot ∈ table, slot.yiaddr ≠ 0 ∧ slot.chaddr = chaddr ∧ slot.yiaddr = yiaddr) ↔
        ∃ lease ∈ leases, lease.chaddr = chaddr ∧ lease.yiaddr = yiaddr) ∧
      (TableOf now leases table ↔ ∀ l ∈ leases, ntohl l.expires = l.expires) := by
  have written := dhcpdSetAllStaticLease_eq inside readable
  have loaded := readStaticLeases_eq now addressed room
  refine ⟨_, _, written, loaded, ?_, tableOf_iff addressed distinct⟩
  intro chaddr yiaddr
  constructor
  · rintro ⟨slot, slotIn, used, rfl, rfl⟩
    obtain ⟨lease, leaseIn, rfl⟩ := (mem_table addressed slot).1 ⟨slotIn, used⟩
    exact ⟨lease, leaseIn, (serverLease_chaddr now lease).symm, (serverLease_yiaddr now lease).symm⟩
  · rintro ⟨lease, leaseIn, rfl, rfl⟩
    obtain ⟨slotIn, used⟩ := (mem_table addressed (serverLease now lease)).2 ⟨lease, leaseIn, rfl⟩
    exact ⟨_, slotIn, used, serverLease_chaddr now lease, serverLease_yiaddr now lease⟩

open Sample

/-- Two reservations for `seconds` each. -/
def Sample.reservedFor (seconds : UInt32) : List Reservation :=
  [⟨ip 20, ⟨[0xAA, 0, 0, 0, 0, 1], rfl⟩, seconds⟩, ⟨ip 21, ⟨[0xAA, 0, 0, 0, 0, 2], rfl⟩, seconds⟩]

theorem static_file_two_reservations :
    ∃ file table, dhcpdSetAllStaticLease ((reservedFor 0).map Reservation.info) 2 = some file ∧
      readStaticLeases Sample.config 1000 (some file) = table ∧
      TableOf 1000 ((reservedFor 0).map Reservation.lease) table := by
  obtain ⟨file, table, written, loaded, -, agrees⟩ := static_file_means_same_iff Sample.config 1000
    ((reservedFor 0).map Reservation.info) 2 ((reservedFor 0).map Reservation.lease) (le_refl 2)
    (mapM_info (reservedFor 0)) (by decide) (by decide) (by decide)
  exact ⟨file, table, written, loaded, agrees.2 (by decide)⟩

/-- The library writes 864000 seconds, ten days; the server adds 3083520, five weeks. -/
theorem static_file_lease_time_swapped : dhcpdSetAllStaticLease ((reservedFor 864000).map Reservation.info) 2 =
        some (((reservedFor 864000).map Reservation.lease).map staticRecord).flatten ∧
      ¬ TableOf 1000 ((reservedFor 864000).map Reservation.lease) (readStaticLeases Sample.config 1000
          (some (((reservedFor 864000).map Reservation.lease).map staticRecord).flatten)) := by
  constructor
  · exact dhcpdSetAllStaticLease_eq (le_refl 2) (mapM_info (reservedFor 864000))
  · intro agrees
    rw [readStaticLeases_eq 1000 (by decide) (by decide), tableOf_iff (by decide) (by decide)] at agrees
    exact absurd agrees (by decide)

end RouterApps.Udhcpd
