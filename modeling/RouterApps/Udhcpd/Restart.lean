/-
# Udhcpd.Restart -- leases across a restart

`write_leases` writes the used slots, with the time each has left, and
`read_leases` puts them back through `add_lease`.  The records come back as they
were written (`leaseOfRecord_leaseRecord`), the table has room for all of them
(`readLeasesLoop_eq_foldl`), and no record evicts another.

What is lost is lost in the filter: `read_leases` compares the words of the
addresses as they lie in memory, where the last byte counts most.  In a pool that
lies in one /24 network this is the order of the addresses.  In a larger pool it
is not.
-/
import RouterApps.Udhcpd.Unique

namespace RouterApps.Udhcpd

open CLib Theory Theory.Table List CString

/-! ## The file gives the records back -/

variable {l : Lease} (hostname : CharArray hostnameLen)

theorem hostnameOfField_hostnameField : hostnameOfField (hostnameField hostname) = hostname := by
  have fits : hostname.bytes.length < 24 := hostname.fits
  have cut : ofBuffer ((hostnameField hostname).take (hostnameLen - 1)) = hostname.toCString := by
    unfold hostnameField hostnameLen
    rw [take_append, take_of_length_le (by omega), take_replicate]
    cases left : min (24 - 1 - hostname.bytes.length) (24 - hostname.bytes.length) with
    | zero =>
      ext1
      simpa using ofBuffer_of_nulFree hostname.nulFree
    | succ n => exact ofBuffer_append_nul hostname.toCString (replicate n 0)
  exact CharArray.ext (congrArg bytes cut)

@[simp] theorem hostnameField_length : (hostnameField hostname).length = hostnameLen := by
  have fits := hostname.fits
  simp only [hostnameField, length_append, length_replicate]
  omega

theorem leaseRecord_length (config : ServerConfig) (curr : UInt32) (lease : Lease) :
    (leaseRecord config curr lease).length = leaseSize := by
  simp [leaseRecord, leaseSize, lease.chaddr.size, hostnameLen]

/-- The slot that is read for one that was written. -/
def readBack (config : ServerConfig) (curr : UInt32) (lease : Lease) : Lease :=
  ⟨lease.chaddr, lease.yiaddr, htonl (writtenLeaseTime config curr lease), lease.hostname⟩

section

variable (config : ServerConfig)

include config

variable (curr : UInt32) (lease : Lease)

@[simp] theorem readBack_chaddr : (readBack config curr lease).chaddr = lease.chaddr := by unfold readBack; rfl

@[simp] theorem readBack_yiaddr : (readBack config curr lease).yiaddr = lease.yiaddr := by unfold readBack; rfl

theorem leaseOfRecord_leaseRecord : leaseOfRecord (leaseRecord config curr lease) = readBack config curr lease := by
  obtain ⟨⟨chaddr, size⟩, yiaddr, expires, hostname⟩ := lease
  have first : ∀ rest : List UInt8, (chaddr ++ rest).drop 16 = rest := fun rest =>
    drop_left' size
  have twenty : ∀ l : List UInt8, l.drop 20 = (l.drop 16).drop 4 := fun l => by simp
  have twentyFour : ∀ l : List UInt8, l.drop 24 = ((l.drop 16).drop 4).drop 4 := fun l => by simp
  simp only [leaseOfRecord, leaseRecord, readBack, append_assoc, twenty, twentyFour, first,
    take_leBytes_append, drop_leBytes_append, hostnameOfField_hostnameField]
  simp [take_left' size]

theorem records_writeLeases (leases : List Lease) :
    (freadAll leaseSize (writeLeases config curr leases)).map leaseOfRecord =
      (leases.filter fun lease => lease.yiaddr ≠ 0).map (readBack config curr) := by
  unfold writeLeases
  rw [freadAll_flatten (by decide)]
  · rw [map_map]
    exact map_congr_left fun lease _ => leaseOfRecord_leaseRecord config curr lease
  · intro record member
    obtain ⟨lease, -, rfl⟩ := mem_map.1 member
    exact leaseRecord_length config curr lease

end

/-! ## Reading runs to the end -/

variable {leases : List Lease}

section

variable {config : ServerConfig} {now : UInt32}

/-- What one record does to the table, when there is room. -/
def readRecord (config : ServerConfig) (now : UInt32) (leases : List Lease) (record : Lease) : List Lease :=
  if config.wordInPool record.yiaddr then
    (addLease now record.chaddr record.yiaddr
      (if config.remaining then ntohl record.expires else ntohl record.expires - now)
      record.hostname leases).2
  else leases

/-- The number of slots that can be used. -/
def freeSlots (now : UInt32) (leases : List Lease) : Nat := leases.countP (leaseExpired now)

theorem leaseExpired_zero (late : 0 < now) : leaseExpired now Lease.zero = true :=
  decide_eq_true late

theorem freeSlots_clearLease (late : 0 < now) (chaddr : Chaddr) (yiaddr : UInt32)
    (leases : List Lease) : freeSlots now leases ≤ freeSlots now (clearLease chaddr yiaddr leases) := by
  unfold freeSlots clearLease
  rw [countP_map]
  refine countP_mono_left fun lease _ expired => ?_
  simp only [Function.comp]
  split
  · exact leaseExpired_zero late
  · exact expired

theorem addLease_of_freeSlots (late : 0 < now)
    (free : 0 < freeSlots now leases) (chaddr : Chaddr) (yiaddr lease : UInt32) (hostname : CharArray hostnameLen) :
    ∃ i leases', addLease now chaddr yiaddr lease hostname leases = (some i, leases') ∧
      freeSlots now leases ≤ freeSlots now leases' + 1 := by
  have more := freeSlots_clearLease late chaddr yiaddr leases
  rcases addLease_cases now chaddr yiaddr lease hostname leases with ⟨i, old, h, found, -⟩ | ⟨-, full⟩
  · refine ⟨i, _, h, more.trans ?_⟩
    obtain ⟨inBounds, -⟩ := List.getElem?_eq_some_iff.1 found
    unfold freeSlots
    rw [countP_set inBounds]
    split <;> split <;> omega
  · obtain ⟨l, member, expired⟩ := countP_pos_iff.1 (free.trans_le more)
    simp only [leaseExpired, decide_eq_true_eq] at expired
    exact absurd expired (UInt32.not_lt.2 (full l member))

theorem freeSlots_readRecord (config : ServerConfig) (late : 0 < now)
    (free : 0 < freeSlots now leases) (record : Lease) :
    freeSlots now leases ≤ freeSlots now (readRecord config now leases record) + 1 := by
  unfold readRecord
  split
  · obtain ⟨i, leases', added, le⟩ := addLease_of_freeSlots late free record.chaddr record.yiaddr
      (if config.remaining then ntohl record.expires else ntohl record.expires - now) record.hostname
    rw [added]
    exact le
  · exact Nat.le_succ _

theorem readLeasesLoop_cons (late : 0 < now) (record : Lease) (records : List Lease) {i : Nat}
    (slot : i < config.maxLeases) (free : 0 < freeSlots now leases) :
    ∃ i' ≤ i + 1, readLeasesLoop config now (record :: records) i leases =
      readLeasesLoop config now records i' (readRecord config now leases record) := by
  obtain ⟨j, leases', added, -⟩ := addLease_of_freeSlots late free record.chaddr record.yiaddr
    (if config.remaining then ntohl record.expires else ntohl record.expires - now) record.hostname
  simp only [readLeasesLoop, readRecord, slot]
  by_cases inPool : config.wordInPool record.yiaddr = true
  · exact ⟨i + 1, le_rfl, by simp only [inPool, if_true, added]⟩
  · exact ⟨i, Nat.le_succ i, by simp only [inPool]; rfl⟩

theorem readLeasesLoop_eq_foldl (late : 0 < now) (records : List Lease) {i : Nat}
    (slots : i + records.length ≤ config.maxLeases) (free : records.length ≤ freeSlots now leases) :
    readLeasesLoop config now records i leases = records.foldl (readRecord config now) leases := by
  induction records generalizing i leases with
  | nil => rfl
  | cons record records ih =>
    simp only [length_cons] at slots free
    have room : 0 < freeSlots now leases := by omega
    have left := freeSlots_readRecord config late room record
    have slot : i < config.maxLeases := by omega
    obtain ⟨i', le, step⟩ := readLeasesLoop_cons late record records slot room
    rw [step]
    exact ih (by omega) (by omega)

theorem mem_foldl_readRecord (live : now ≤ l.expires) (records : List Lease)
    (apart : ∀ r ∈ records, Apart r.chaddr r.yiaddr l) (member : l ∈ leases) :
    l ∈ records.foldl (readRecord config now) leases := by
  induction records generalizing leases with
  | nil => exact member
  | cons record records ih =>
    refine ih (fun r inside => apart r (mem_cons_of_mem record inside)) ?_
    unfold readRecord
    split
    · exact addLease_keeps member (apart record mem_cons_self) live
    · exact member

theorem freeSlots_foldl (late : 0 < now) (records : List Lease) (free : records.length < freeSlots now leases) :
    0 < freeSlots now (records.foldl (readRecord config now) leases) := by
  induction records generalizing leases with
  | nil => exact free
  | cons record records ih =>
    simp only [length_cons] at free
    have left := freeSlots_readRecord config late (by omega : 0 < freeSlots now leases) record
    exact ih (by omega)

end

/-! ## Which leases survive -/

section

variable {config : ServerConfig} {t t' : UInt32}

/-- The slot is back after a restart at `t'`, with the time it had left at `t`. -/
def Restored (config : ServerConfig) (t t' : UInt32) (leases : List Lease) (lease : Lease) : Prop :=
  ∃ l ∈ initialLeases config t' (writeLeases config t leases),
    l.chaddr = lease.chaddr ∧ l.yiaddr = lease.yiaddr ∧ l.hostname = lease.hostname ∧
      l.expires.toNat = t'.toNat + (lease.expires.toNat - t.toNat)

variable (file : List UInt8)

theorem wordInPool_of_mem (member : l ∈ initialLeases config t' file) (real : l.yiaddr ≠ 0) :
    config.wordInPool l.yiaddr = true := by
  have empty : ∀ l ∈ replicate config.maxLeases Lease.zero, l.yiaddr ≠ 0 → config.wordInPool l.yiaddr = true := by
    intro l inside used
    rw [eq_of_mem_replicate inside] at used
    exact absurd rfl used
  refine readLeasesLoop_invariant
    (I := fun leases => ∀ l ∈ leases, l.yiaddr ≠ 0 → config.wordInPool l.yiaddr = true)
    (fun chaddr yiaddr lease hostname leases inPool all l member real => by
      rcases mem_addLease member with rfl | rfl | ⟨inside, -⟩
      · exact inPool
      · exact absurd rfl real
      · exact all l inside real)
    _ 0 empty l member real

/-- In the epoch's first second no slot counts as expired, and nothing is read. -/
theorem initialLeases_zero (member : l ∈ initialLeases config 0 file) : l.yiaddr = 0 := by
  have empty : ∀ l ∈ replicate config.maxLeases Lease.zero, l.yiaddr = 0 := by
    intro l inside
    rw [eq_of_mem_replicate inside]
    rfl
  refine readLeasesLoop_invariant
    (I := fun leases => ∀ l ∈ leases, l.yiaddr = 0)
    (fun chaddr yiaddr lease hostname leases _ all l member => by
      rcases addLease_cases 0 chaddr yiaddr lease hostname leases with ⟨i, old, -, -, lt, -⟩ | ⟨h, -⟩
      · exact absurd lt (by simp)
      · rw [h] at member
        rcases mem_clearLease member with rfl | ⟨inside, -⟩
        · rfl
        · exact all l inside)
    _ 0 empty l member

variable {lease : Lease}

theorem writtenLeaseTime_of_live (remaining : config.remaining = true)
    (live : t ≤ lease.expires) : writtenLeaseTime config t lease = lease.expires - t := by
  have unexpired : leaseExpired t lease = false := by
    simpa [leaseExpired] using live
  simp [writtenLeaseTime, remaining, unexpired]

/-- The table has room for every record, so it is read in one pass. -/
theorem initialLeases_split (late : 0 < t') (size : leases.length ≤ config.maxLeases) {before after : List Lease}
    (split : leases.filter (fun lease => lease.yiaddr ≠ 0) = before ++ lease :: after) :
    ∃ table, 0 < freeSlots t' table ∧
      initialLeases config t' (writeLeases config t leases) =
        (after.map (readBack config t)).foldl (readRecord config t')
          (readRecord config t' table (readBack config t lease)) := by
  have count : before.length + (after.length + 1) ≤ config.maxLeases := by
    have := (length_filter_le (fun lease : Lease => decide (lease.yiaddr ≠ 0)) leases).trans size
    rw [split] at this
    simpa using this
  have free : freeSlots t' (replicate config.maxLeases Lease.zero) = config.maxLeases := by
    simp [freeSlots, countP_replicate, leaseExpired_zero late]
  refine ⟨(before.map (readBack config t)).foldl (readRecord config t')
    (replicate config.maxLeases Lease.zero), ?_, ?_⟩
  · refine freeSlots_foldl late _ ?_
    rw [length_map]
    omega
  · unfold initialLeases readLeases
    rw [records_writeLeases, split, readLeasesLoop_eq_foldl late]
    · simp only [map_append, map_cons, foldl_append, foldl_cons]
    · simpa using count
    · rw [free]
      simpa using count

/-- Used slots that come later are of other clients and other addresses. -/
theorem Unique.apart_of_split (unique : Unique leases) {before after : List Lease} {other : Lease}
    (split : leases.filter (fun lease => lease.yiaddr ≠ 0) = before ++ lease :: after)
    (later : other ∈ after) : Apart other.chaddr other.yiaddr lease := by
  have usedC : Distinct Lease.chaddr blankChaddr (before ++ lease :: after) :=
    split ▸ List.Pairwise.sublist filter_sublist unique.chaddr
  have usedY : Distinct Lease.yiaddr 0 (before ++ lease :: after) :=
    split ▸ List.Pairwise.sublist filter_sublist unique.yiaddr
  constructor
  · intro client same
    have := (pairwise_cons.1 (pairwise_append.1 usedC).2.1).1 other later same
    exact client (same.symm.trans this)
  · intro address same
    have := (pairwise_cons.1 (pairwise_append.1 usedY).2.1).1 other later same
    exact address (same.symm.trans this)

/-- A record that the filter lets through, of a live slot, ends up in the table. -/
theorem restored_of_wordInPool (remaining : config.remaining = true) (unique : Unique leases)
    (size : leases.length ≤ config.maxLeases) (member : lease ∈ leases)
    (live : t ≤ lease.expires) (real : lease.yiaddr ≠ 0) (late : 0 < t')
    (inPool : config.wordInPool lease.yiaddr = true) (bound : t'.toNat + (lease.expires.toNat - t.toNat) < 2 ^ 32) :
    Restored config t t' leases lease := by
  have ending : (t' + (lease.expires - t)).toNat = t'.toNat + (lease.expires.toNat - t.toNat) := by
    rw [UInt32.toNat_add, UInt32.toNat_sub_of_le _ _ live]
    exact Nat.mod_eq_of_lt bound
  obtain ⟨before, after, split⟩ := append_of_mem
    (mem_filter.2 ⟨member, by simpa using real⟩ : lease ∈ leases.filter fun lease => lease.yiaddr ≠ 0)
  obtain ⟨table, room, whole⟩ := initialLeases_split late size split
  obtain ⟨i, leases', added, -⟩ := addLease_of_freeSlots late room lease.chaddr lease.yiaddr
    (lease.expires - t) lease.hostname
  obtain ⟨l, stored, client, address, hostname, expires⟩ :
      ∃ l ∈ readRecord config t' table (readBack config t lease), l.chaddr = lease.chaddr ∧
        l.yiaddr = lease.yiaddr ∧ l.hostname = lease.hostname ∧
        l.expires = t' + (lease.expires - t) := by
    simp only [readBack]
    rw [readRecord, if_pos inPool, if_pos remaining, ntohl_htonl, writtenLeaseTime_of_live remaining live, added]
    exact ⟨_, addLease_stores added, rfl, rfl, rfl, rfl⟩
  refine ⟨l, ?_, client, address, hostname, by rw [expires, ending]⟩
  rw [whole]
  refine mem_foldl_readRecord ?_ _ ?_ stored
  · rw [UInt32.le_iff_toNat_le, expires]
    omega
  · intro r inside
    obtain ⟨other, later, rfl⟩ := mem_map.1 inside
    have apart := unique.apart_of_split split later
    unfold Apart
    rw [client, address, readBack_chaddr, readBack_yiaddr]
    exact apart

end

/-- **Which leases a restart keeps.**  An unexpired slot with an address in the pool comes back
exactly if the address passes the filter on words (and the clock is past 0 and the new expiry fits
in 32 bits). -/
theorem restart_keeps_iff (config : ServerConfig) (remaining : config.remaining = true)
    (t t' : UInt32) (leases : List Lease) (unique : Unique leases)
    (size : leases.length = config.maxLeases) (lease : Lease) (member : lease ∈ leases)
    (live : t ≤ lease.expires) (real : lease.yiaddr ≠ 0) : Restored config t t' leases lease ↔
      config.wordInPool lease.yiaddr = true ∧ 0 < t' ∧ t'.toNat + (lease.expires.toNat - t.toNat) < 2 ^ 32 := by
  constructor
  · rintro ⟨l, inside, -, address, -, ending⟩
    refine ⟨address ▸ wordInPool_of_mem _ inside (address ▸ real), ?_, ending ▸ l.expires.toNat_lt⟩
    by_contra early
    have zero : t' = 0 := by simpa using early
    subst zero
    exact real (address ▸ initialLeases_zero _ inside)
  · rintro ⟨inPool, late, bound⟩
    exact restored_of_wordInPool remaining unique size.le member live real late inPool bound

open Sample

/-- Client 7 has .20 for another hour when the daemon stops at 1000; it has it for an
hour from 1010 on. -/
theorem restart_keeps_sample :
    Restored config 1000 1010 [⟨mac 7, ip 20, 4600, noHostname⟩, Lease.zero]
      ⟨mac 7, ip 20, 4600, noHostname⟩ :=
  (restart_keeps_iff config rfl 1000 1010 _ ⟨by decide, by decide⟩ rfl _ mem_cons_self
    (by decide) (by decide +kernel)).2 (by decide +kernel)

/-- The pool 192.168.0.20 to 192.168.1.10. -/
def Sample.twoNetworks : ServerConfig := { config with stop := leWord [192, 168, 1, 10] }

/-- Client 7 has 192.168.0.30 for another hour, and after the restart no slot has it. -/
theorem restart_loses_lease : ntohl twoNetworks.start ≤ ntohl twoNetworks.stop ∧
      twoNetworks.inPool (ip 30) = true ∧
      ¬ Restored twoNetworks 1000 1010 [⟨mac 7, ip 30, 4600, noHostname⟩, Lease.zero]
        ⟨mac 7, ip 30, 4600, noHostname⟩ := by
  refine ⟨by decide +kernel, by decide +kernel, ?_⟩
  rintro ⟨l, member, -, address, -⟩
  have lost : initialLeases twoNetworks 1010 (writeLeases twoNetworks 1000
      [⟨mac 7, ip 30, 4600, noHostname⟩, Lease.zero]) = [Lease.zero, Lease.zero] := by
    decide +kernel
  have absent : ∀ l ∈ [Lease.zero, Lease.zero], l.yiaddr ≠ ip 30 := by decide +kernel
  exact absent l member address

end RouterApps.Udhcpd
