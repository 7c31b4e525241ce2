/-
# Dhcplib.Array -- what the static lease functions do, in terms of reservations

A `Reservation` is an address, a hardware address of six bytes and a lease time.  Its record is what
the file holds and its info is what the array holds (`staticLease_info`, `staticLeases_write`).

Each function gets one statement here, and nothing above this module unfolds one:

* `loadLeases_eq`: the array starts with the infos of the file;
* `dhcpdSetAllStaticLease_eq`: the file holds the records of the front of the array;
* `removeLoop_eq`: the loop that shifts in place deletes the first entry that matches.
-/
import RouterApps.Theory.Registry
import RouterApps.Dhcplib.StaticLease

namespace RouterApps.Dhcplib

open CLib Udhcpd Theory List Option

structure Reservation where
  address : UInt32
  mac : Block 6
  expires : UInt32
deriving DecidableEq

namespace Reservation

/-- The record of the file. -/
def lease (e : Reservation) : StaticLease := ⟨chaddrOfMac e.mac, e.address, e.expires⟩

/-- The element of the array. -/
def info (e : Reservation) : LeaseInfo := leaseInfo e.lease

end Reservation

/-! ## Texts and records -/

theorem macOfChaddr_chaddrOfMac (mac : Block 6) : macOfChaddr (chaddrOfMac mac) = mac := by
  obtain ⟨bytes, size⟩ := mac
  simp only [macOfChaddr, Block.mk.injEq]
  exact take_left' size

theorem Reservation.lease_injective : Function.Injective Reservation.lease := by
  rintro ⟨address, mac, expires⟩ ⟨address', mac', expires'⟩ same
  simp only [Reservation.lease, StaticLease.mk.injEq] at same
  have macs := congrArg macOfChaddr same.1
  rw [macOfChaddr_chaddrOfMac, macOfChaddr_chaddrOfMac] at macs
  rw [macs, same.2.1, same.2.2]

variable {config : DhcpdConf} {leaseArr : List LeaseInfo} (e : Reservation) (lease : StaticLease)
  (leases : List StaticLease)

theorem info_ipAddr : e.info.ipAddr.toCString = (inetNtoa e.address).toCString := rfl

theorem info_hwAddr : e.info.hwAddr.toCString = (macText e.mac).toCString := by
  show (macText (macOfChaddr (chaddrOfMac e.mac))).toCString = _
  rw [macOfChaddr_chaddrOfMac]

theorem staticLease_info : staticLease e.info = some e.lease := by
  unfold staticLease
  rw [info_hwAddr, info_ipAddr, strtomac_macText, inetAddr_inetNtoa]
  rfl

theorem mapM_info (entries : List Reservation) :
    (entries.map Reservation.info).mapM staticLease = some (entries.map Reservation.lease) := by
  induction entries with
  | nil => rfl
  | cons e rest ih => simp [staticLease_info, ih]

theorem staticRecord_length : (staticRecord lease).length = staticLeaseSize := by
  simp [staticRecord, lease.chaddr.size, staticLeaseSize]

theorem staticLeaseOfRecord_staticRecord : staticLeaseOfRecord (staticRecord lease) = lease := by
  obtain ⟨⟨chaddr, size⟩, yiaddr, expires⟩ := lease
  have first : ∀ rest : List UInt8, (chaddr ++ rest).drop 16 = rest := fun rest =>
    drop_left' size
  have twenty : ∀ l : List UInt8, l.drop 20 = (l.drop 16).drop 4 := fun l => by simp
  have last : (leBytes expires).take 4 = leBytes expires := rfl
  simp only [staticLeaseOfRecord, staticRecord, append_assoc, twenty, first,
    take_leBytes_append, drop_leBytes_append, last]
  simp [take_left' size]

theorem staticLeases_write : staticLeases (some (leases.map staticRecord).flatten) = leases := by
  unfold staticLeases
  rw [getD_some, freadAll_flatten (by decide)]
  · rw [List.map_map]
    exact (map_congr_left fun lease _ => staticLeaseOfRecord_staticRecord lease).trans (map_id leases)
  · intro record member
    obtain ⟨lease, -, rfl⟩ := mem_map.1 member
    exact staticRecord_length lease

/-! ## Reading and writing the file -/

theorem getLoop_eq {max : Int} (i : Nat) (leaseArr : List LeaseInfo)
    (size : (leaseArr.length : Int) = max) (room : i + leases.length ≤ leaseArr.length) :
    ∃ filled, getLoop max leases i leaseArr = some (i + leases.length, filled) ∧
      filled.length = leaseArr.length ∧
      filled.take (i + leases.length) = leaseArr.take i ++ leases.map leaseInfo := by
  induction leases generalizing i leaseArr with
  | nil => exact ⟨leaseArr, rfl, rfl, by simp⟩
  | cons lease rest ih =>
    rw [length_cons] at room
    have inside : i < leaseArr.length := by omega
    have grown := take_succ_set inside (leaseInfo lease)
    simp only [getLoop]
    rw [if_pos inside]
    split
    · -- the array is full, so this was the last record
      obtain rfl : rest = [] := eq_nil_of_length_eq_zero (by omega)
      exact ⟨_, rfl, length_set, grown⟩
    · obtain ⟨filled, read, length, front⟩ := ih (i + 1) (leaseArr.set i (leaseInfo lease))
        (by rw [length_set]; exact size) (by rw [length_set]; omega)
      rw [length_set] at length
      rw [grown] at front
      refine ⟨filled, ?_, length, ?_⟩
      · rw [read, length_cons]
        congr 2
        omega
      · rw [length_cons, show i + (rest.length + 1) = i + 1 + rest.length by omega, front]
        simp

theorem loadLeases_eq {file : Option (List UInt8)} (allocated : 0 ≤ config.maxStaticLease)
    (room : (staticLeases file).length ≤ config.maxStaticLease.toNat) :
    ∃ leaseArr, loadLeases config file = some ((staticLeases file).length, leaseArr) ∧
      leaseArr.length = config.maxStaticLease.toNat ∧
      leaseArr.take (staticLeases file).length = (staticLeases file).map leaseInfo := by
  have size : ((replicate config.maxStaticLease.toNat LeaseInfo.zero).length) = config.maxStaticLease := by
    rw [length_replicate]
    omega
  obtain ⟨leaseArr, read, length, front⟩ := getLoop_eq (staticLeases file) 0 _ size (by rw [length_replicate]; omega)
  rw [Nat.zero_add] at read front
  refine ⟨leaseArr, ?_, by rw [length, length_replicate], by exact front⟩
  unfold loadLeases
  rw [if_pos allocated]
  exact read

theorem loadLeases_eq_none (file : Option (List UInt8))
    (negative : ¬ 0 ≤ config.maxStaticLease) : loadLeases config file = none := by
  unfold loadLeases
  rw [if_neg negative]

theorem dhcpdSetAllStaticLease_eq {count : Nat} {leases : List StaticLease} (inside : count ≤ leaseArr.length)
    (read : (leaseArr.take count).mapM staticLease = some leases) :
    dhcpdSetAllStaticLease leaseArr count = some (leases.map staticRecord).flatten := by
  unfold dhcpdSetAllStaticLease
  rw [if_pos inside, read]
  rfl

/-! ## The loop of `dhcpd_remove_static_lease` -/

section

variable {ipAddr macAddr : Option CString} {count : Nat} {info : LeaseInfo} (left : Nat)

theorem removeLoop_of_match {idx : Nat}
    (here : leaseArr[idx]? = some info) (hit : searchMatches ipAddr macAddr info = true) :
    removeLoop ipAddr macAddr count (left + 1) idx false leaseArr =
      removeLoop ipAddr macAddr count (left + 1) idx true leaseArr := by
  simp only [removeLoop, here, hit, bind_eq_bind, bind_some, Bool.or_true]

theorem removeLoop_of_mismatch {idx : Nat}
    (here : leaseArr[idx]? = some info) (miss : searchMatches ipAddr macAddr info = false) :
    removeLoop ipAddr macAddr count (left + 1) idx false leaseArr =
      removeLoop ipAddr macAddr count left (idx + 1) false leaseArr := by
  simp [removeLoop, here, miss]

theorem removeLoop_found (idx : Nat) (leaseArr : List LeaseInfo)
    (last : idx + left + 1 = count) (inside : count ≤ leaseArr.length) :
    ∃ shifted, removeLoop ipAddr macAddr count (left + 1) idx true leaseArr = some (true, shifted) ∧
      shifted.length = leaseArr.length ∧
      shifted.take (count - 1) = (leaseArr.take count).eraseIdx idx := by
  induction left generalizing idx leaseArr with
  | zero =>
    have here : leaseArr[idx]? = some leaseArr[idx] := getElem?_eq_getElem (by omega)
    have final : (idx != count - 1) = false := bne_eq_false_iff_eq.2 (by omega)
    refine ⟨leaseArr, ?_, rfl, ?_⟩
    · simp [removeLoop, here, final]
    · rw [eraseIdx_eq_take_drop_succ, take_take, drop_eq_nil_of_le (by rw [length_take]; omega), append_nil]
      congr 1
      omega
  | succ left ih =>
    have here : leaseArr[idx]? = some leaseArr[idx] := getElem?_eq_getElem (by omega)
    have next : leaseArr[idx + 1]? = some leaseArr[idx + 1] := getElem?_eq_getElem (by omega)
    obtain ⟨shifted, ran, length, front⟩ := ih (idx + 1) (leaseArr.set idx leaseArr[idx + 1])
      (by omega) (by rw [length_set]; exact inside)
    refine ⟨shifted, ?_, by rw [length, length_set], ?_⟩
    · rw [removeLoop]
      simp [here, next, show idx ≠ count - 1 by omega, ran]
    · have moved : (leaseArr.take count)[idx + 1]? = some leaseArr[idx + 1] := by
        rw [getElem?_take_of_lt (by omega), next]
      rw [front, take_set, eraseIdx_set_succ moved]

theorem removeLoop_eq (ipAddr macAddr : Option CString) (left idx : Nat) (leaseArr : List LeaseInfo)
    (last : idx + left = count) (inside : count ≤ leaseArr.length) :
    (((leaseArr.take count).drop idx).any (searchMatches ipAddr macAddr) = false ∧
        removeLoop ipAddr macAddr count left idx false leaseArr = some (false, leaseArr)) ∨
      (((leaseArr.take count).drop idx).any (searchMatches ipAddr macAddr) = true ∧
        ∃ shifted, removeLoop ipAddr macAddr count left idx false leaseArr = some (true, shifted) ∧
          shifted.length = leaseArr.length ∧
          shifted.take (count - 1) = leaseArr.take idx ++
            ((leaseArr.take count).drop idx).eraseP (searchMatches ipAddr macAddr)) := by
  induction left generalizing idx with
  | zero =>
    left
    rw [drop_eq_nil_of_le (by rw [length_take]; omega)]
    exact ⟨rfl, rfl⟩
  | succ left ih =>
    have bound : idx < (leaseArr.take count).length := by
      rw [length_take]
      omega
    have here : leaseArr[idx]? = some leaseArr[idx] := getElem?_eq_getElem (by omega)
    have head : (leaseArr.take count)[idx] = leaseArr[idx] := getElem_take
    rw [drop_eq_getElem_cons bound, head, any_cons]
    cases hit : searchMatches ipAddr macAddr leaseArr[idx] with
    | true =>
      right
      obtain ⟨shifted, ran, length, front⟩ := removeLoop_found left idx leaseArr (by omega) inside
      refine ⟨rfl, shifted, (removeLoop_of_match left here hit).trans ran, length, ?_⟩
      rw [front, eraseP_cons_of_pos hit, eraseIdx_eq_take_drop_succ, take_take, Nat.min_eq_left (by omega)]
    | false =>
      rw [removeLoop_of_mismatch left here hit, eraseP_cons_of_neg (by simp [hit])]
      rcases ih (idx + 1) (by omega) with ⟨absent, ran⟩ | ⟨present, shifted, ran, length, front⟩
      · exact .inl ⟨absent, ran⟩
      · refine .inr ⟨present, shifted, ran, length, ?_⟩
        rw [front, take_succ_eq_append_getElem (by omega), append_assoc]
        rfl

end

end RouterApps.Dhcplib
