/-
# Udhcpd.Files -- the lease files (files.c)

`write_leases` dumps the used slots of the table, 48 bytes each: hardware
address, address as it lies in memory, lease time in network order, host name.
`read_leases` reads such a file into a fresh table through `add_lease`, keeping
the records whose address lies between `start` and `end` -- compared as the
32-bit words that memory holds, not as addresses.
-/
import RouterApps.CLib.Stream
import RouterApps.Udhcpd.Leases

namespace RouterApps.Udhcpd

open CLib List

/-- `sizeof (struct dhcpOfferedAddr)`. -/
def leaseSize : Nat := 16 + 4 + 4 + hostnameLen

/-- The `char hostname[24]` of a slot, padded. -/
def hostnameField (hostname : CharArray hostnameLen) : List UInt8 :=
  hostname.bytes ++ replicate (hostnameLen - hostname.bytes.length) 0

/-- A field without a NUL makes the source's `strcpy` run past it; here the name ends with the
field. -/
def hostnameOfField (field : List UInt8) : CharArray hostnameLen :=
  ⟨CString.ofBuffer (field.take (hostnameLen - 1)), by
    have := (takeWhile_sublist (fun b : UInt8 => b != 0) (l := field.take (hostnameLen - 1))).length_le
    have := length_take_le (hostnameLen - 1) field
    simp only [CString.ofBuffer, hostnameLen] at *
    omega⟩

/-- The lease time `write_leases` puts in a record, in host order. -/
def writtenLeaseTime (config : ServerConfig) (curr : UInt32) (lease : Lease) : UInt32 :=
  if config.remaining then
    if leaseExpired curr lease then 0 else lease.expires - curr
  else lease.expires

def leaseRecord (config : ServerConfig) (curr : UInt32) (lease : Lease) : List UInt8 :=
  lease.chaddr.bytes ++ leBytes lease.yiaddr ++ leBytes (htonl (writtenLeaseTime config curr lease)) ++
    hostnameField lease.hostname

/-- The file `write_leases` leaves. -/
def writeLeases (config : ServerConfig) (curr : UInt32) (leases : List Lease) : List UInt8 :=
  ((leases.filter fun lease => lease.yiaddr ≠ 0).map (leaseRecord config curr)).flatten

theorem chaddr_size (record : List UInt8) : ((record ++ replicate 16 0).take 16).length = 16 := by simp

/-- `fread` into a `struct dhcpOfferedAddr`, given the 48 bytes. -/
def leaseOfRecord (record : List UInt8) : Lease :=
  ⟨⟨(record ++ replicate 16 0).take 16, chaddr_size record⟩, leWord ((record.drop 16).take 4),
    leWord ((record.drop 20).take 4), hostnameOfField (record.drop 24)⟩

/-- The filter of `read_leases`, on the words as memory holds them. -/
def ServerConfig.wordInPool (config : ServerConfig) (yiaddr : UInt32) : Bool :=
  yiaddr ≥ config.start && yiaddr ≤ config.stop

/-- The loop of `read_leases`; `i` counts the slots used, and a NULL from `add_lease` ends it. -/
def readLeasesLoop (config : ServerConfig) (now : UInt32) : List Lease → Nat → List Lease → List Lease
  | [], _, leases => leases
  | record :: records, i, leases =>
    if i < config.maxLeases then
      if config.wordInPool record.yiaddr then
        let expires := ntohl record.expires
        let expires := if config.remaining then expires else expires - now
        match addLease now record.chaddr record.yiaddr expires record.hostname leases with
        | (some _, leases) => readLeasesLoop config now records (i + 1) leases
        | (none, leases) => leases
      else readLeasesLoop config now records i leases
    else leases

/-- `read_leases` into a given table. -/
def readLeases (config : ServerConfig) (now : UInt32) (file : List UInt8) (leases : List Lease) : List Lease :=
  readLeasesLoop config now ((freadAll leaseSize file).map leaseOfRecord) 0 leases

/-- The table `main` starts with: `malloc`, `memset`, `read_leases`. -/
def initialLeases (config : ServerConfig) (now : UInt32) (file : List UInt8) : List Lease :=
  readLeases config now file (replicate config.maxLeases Lease.zero)

theorem readLeasesLoop_invariant {I : List Lease → Prop} {config : ServerConfig} {now : UInt32}
    (preserved : ∀ chaddr yiaddr lease hostname leases, config.wordInPool yiaddr = true →
      I leases → I (addLease now chaddr yiaddr lease hostname leases).2)
    (records : List Lease) (i : Nat) {leases : List Lease} (holds : I leases) :
    I (readLeasesLoop config now records i leases) := by
  induction records generalizing i leases with
  | nil => exact holds
  | cons record records ih =>
    simp only [readLeasesLoop]
    split
    · split
      · rename_i inPool
        have next := preserved record.chaddr record.yiaddr
          (if config.remaining then ntohl record.expires else ntohl record.expires - now)
          record.hostname leases inPool holds
        split
        · rename_i added
          rw [added] at next
          exact ih (i + 1) next
        · rename_i full
          rw [full] at next
          exact next
      · exact ih i holds
    · exact holds

end RouterApps.Udhcpd
