/-
# Udhcpd.Grant -- when an ACK is backed by a slot

`sendACK` sends the packet and then calls `add_lease`, whose answer it ignores.
`add_lease` fails when no slot of the table is expired, unless it clears one
itself because it has the client or the address.  A client without a record, that
asks for an unused address of the pool, need not have such a slot: with a full
table it is told that it has the address, and there is no slot.

The slot's expiry is the 32-bit sum of the time and the lease time, which is what
the ACK promised only if it does not wrap around.
-/
import RouterApps.Udhcpd.Turn

namespace RouterApps.Udhcpd

open CLib Theory Theory.Table List Option

/-- The table has a slot for what was granted: `leaseTime` seconds from time `t` on. -/
def Backed (chaddr : Chaddr) (yiaddr leaseTime : UInt32) (t : Nat) (leases : List Lease) : Prop :=
  ∃ l ∈ leases, l.chaddr = chaddr ∧ l.yiaddr = yiaddr ∧ l.expires.toNat = t + leaseTime.toNat

instance (chaddr : Chaddr) (yiaddr leaseTime : UInt32) (t : Nat) (leases : List Lease) :
    Decidable (Backed chaddr yiaddr leaseTime t leases) :=
  inferInstanceAs (Decidable (∃ l ∈ leases, _))

section

variable {setup : Setup} {packet : Packet} {b b' : Book} {chaddr : Chaddr}
  {yiaddr leaseTime : UInt32} {t : Nat}

theorem Turn.acked (turn : Turn setup packet b b') (fresh : b.out = [])
    (acked : .ack chaddr yiaddr leaseTime t ∈ b'.out) : t = b.clock ∧ ∃ hostname,
      b'.leases = (addLease (UInt32.ofNat t) chaddr yiaddr leaseTime hostname b.leases).2 := by
  have unsent : ∀ {b₁ : Book}, Probing setup b b₁ → .ack chaddr yiaddr leaseTime t ∉ b₁.out :=
    fun probing inside => probing.not_assigned fresh ⟨leaseTime, .inr inside⟩
  cases turn with
  | quiet | drop | release => exact (unsent (.done b) acked).elim
  | nak | inform | decline => simp [Book.update, Book.emit, fresh] at acked
  | search type probing | withhold type probing choice real => exact (unsent probing acked).elim
  | offer type probing choice real =>
    rcases mem_append.1 acked with before | last
    · exact (unsent probing before).elim
    · cases mem_singleton.1 last
  | @ack _ _ hostname type choice =>
    simp only [Book.addLease, Book.emit, fresh, nil_append, mem_singleton] at acked
    obtain ⟨rfl, rfl, rfl, rfl⟩ := acked
    exact ⟨rfl, hostname, rfl⟩

theorem toNat_expires (bound : t + leaseTime.toNat < 2 ^ 32) :
    (UInt32.ofNat t + leaseTime).toNat = t + leaseTime.toNat := by
  rw [UInt32.toNat_add, UInt32.toNat_ofNat']
  omega

theorem toNat_time (bound : t + leaseTime.toNat < 2 ^ 32) : (UInt32.ofNat t).toNat = t := by
  rw [UInt32.toNat_ofNat']
  omega

/-- A slot of the cleared table has both the client and the address only if both are
blank. -/
theorem blank_of_mem_clearLease {leases : List Lease} {l : Lease}
    (member : l ∈ clearLease chaddr yiaddr leases) (hardware : l.chaddr = chaddr)
    (address : l.yiaddr = yiaddr) : chaddr = blankChaddr ∧ yiaddr = 0 := by
  rcases mem_clearLease member with rfl | ⟨-, apart⟩
  · exact ⟨hardware.symm, address.symm⟩
  · constructor
    · by_contra client
      exact apart.1 client hardware
    · by_contra real
      exact apart.2 real address

variable (leases : List Lease) (hostname : CharArray hostnameLen)

theorem clearLease_blank : clearLease blankChaddr 0 leases = leases :=
  clearLease_of_apart fun _ _ => ⟨fun h => absurd rfl h, fun h => absurd rfl h⟩

theorem addLease_full_iff (bound : t + leaseTime.toNat < 2 ^ 32) :
    (addLease (UInt32.ofNat t) chaddr yiaddr leaseTime hostname leases).1 = none ↔
      ¬ (0 < t ∧ ∃ l ∈ leases, l.expires.toNat < t ∨ ¬ Apart chaddr yiaddr l) := by
  have zero : UInt32.ofNat t = 0 ↔ t = 0 := by
    rw [← UInt32.toNat_inj, toNat_time bound]
    rfl
  have le : ∀ l : Lease, UInt32.ofNat t ≤ l.expires ↔ t ≤ l.expires.toNat := by
    intro l
    rw [UInt32.le_iff_toNat_le, toNat_time bound]
  rw [addLease_eq_none, zero]
  constructor
  · rintro (rfl | all) ⟨late, l, member, slot⟩
    · exact Nat.lt_irrefl 0 late
    · obtain ⟨live, apart⟩ := all l member
      rcases slot with expired | near
      · exact Nat.not_lt.2 ((le l).1 live) expired
      · exact near apart
  · intro full
    by_contra usable
    obtain ⟨late, slot⟩ := not_or.1 usable
    refine full ⟨Nat.pos_of_ne_zero late, ?_⟩
    by_contra unusable
    refine slot fun l member => ⟨(le l).2 ?_, ?_⟩
    · by_contra expired
      exact unusable ⟨l, member, .inl (Nat.not_le.1 expired)⟩
    · by_contra near
      exact unusable ⟨l, member, .inr near⟩

theorem backed_addLease_iff : Backed chaddr yiaddr leaseTime t
        (addLease (UInt32.ofNat t) chaddr yiaddr leaseTime hostname leases).2 ↔
      t + leaseTime.toNat < 2 ^ 32 ∧
        ((0 < t ∧ ∃ l ∈ leases, l.expires.toNat < t ∨ ¬ Apart chaddr yiaddr l) ∨
          chaddr = blankChaddr ∧ yiaddr = 0 ∧ Backed blankChaddr 0 leaseTime t leases) := by
  constructor
  · rintro ⟨l, member, hardware, address, ending⟩
    have bound := ending ▸ l.expires.toNat_lt
    refine ⟨bound, ?_⟩
    by_cases room : 0 < t ∧ ∃ l ∈ leases, l.expires.toNat < t ∨ ¬ Apart chaddr yiaddr l
    · exact .inl room
    · have failed := (addLease_full_iff leases hostname bound).2 room
      rcases addLease_cases (UInt32.ofNat t) chaddr yiaddr leaseTime hostname leases with
        ⟨i, old, h, -⟩ | ⟨h, -⟩
      · rw [h] at failed
        cases failed
      · rw [h] at member
        obtain ⟨rfl, rfl⟩ := blank_of_mem_clearLease member hardware address
        rw [clearLease_blank] at member
        exact .inr ⟨rfl, rfl, l, member, hardware, address, ending⟩
  · rintro ⟨bound, room⟩
    rcases addLease_cases (UInt32.ofNat t) chaddr yiaddr leaseTime hostname leases with
      ⟨i, old, h, -⟩ | ⟨h, -⟩
    · have stored := addLease_stores h
      rw [h]
      exact ⟨_, stored, rfl, rfl, toNat_expires bound⟩
    · have failed := (addLease_full_iff leases hostname bound).1 (by rw [h])
      obtain ⟨rfl, rfl, backed⟩ := room.resolve_left failed
      rw [h, clearLease_blank]
      exact backed

end

/-- **When an ACK is backed by a lease.**  The sum of the time and the lease time fits in 32 bits,
and there was a slot to use.  (A grant of address 0 to the all-zero hardware address can also be
backed by an equal slot that was there before.) -/
theorem ack_backed_iff (setup : Setup) (s s' : Server) (m : Message) (step : Step setup s m s')
    (chaddr : Chaddr) (yiaddr leaseTime : UInt32) (t : Nat) (acked : .ack chaddr yiaddr leaseTime t ∈ s'.out) :
    Backed chaddr yiaddr leaseTime t s'.leases ↔
      t + leaseTime.toNat < 2 ^ 32 ∧
        ((0 < t ∧ ∃ l ∈ s.leases, l.expires.toNat < t ∨ ¬ Apart chaddr yiaddr l) ∨
          chaddr = blankChaddr ∧ yiaddr = 0 ∧ Backed blankChaddr 0 leaseTime t s.leases) := by
  obtain ⟨-, hostname, table⟩ := step.turn.acked rfl acked
  rw [table]
  exact backed_addLease_iff s.leases hostname

open Sample

/-- Client 7 asks for .20 when the table is empty. -/
theorem ack_backed_sample : ∃ s, Step ⟨config, []⟩ (boot ⟨config, []⟩ 1000 [])
        (request (mac 7) (ip 20)) s ∧
      .ack (mac 7) (ip 20) 7200 1001 ∈ s.out ∧
      Backed (mac 7) (ip 20) 7200 1001 s.leases := by
  let m := request (mac 7) (ip 20)
  obtain ⟨s, done, sent⟩ := map_eq_some_iff.1
    (show (handle ⟨config, []⟩ 8 m.env m.packet (boot ⟨config, []⟩ 1000 [])).map
        (·.out) = some [.ack (mac 7) (ip 20) 7200 1001] by decide +kernel)
  have acked : .ack (mac 7) (ip 20) 7200 1001 ∈ s.out := by
    rw [sent]
    exact mem_singleton.2 rfl
  have step : Step ⟨config, []⟩ (boot ⟨config, []⟩ 1000 []) m s := ⟨8, done⟩
  refine ⟨s, step, acked, (ack_backed_iff _ _ s m step _ _ _ _ acked).2 ⟨by decide, .inl ⟨by decide, ?_⟩⟩⟩
  exact ⟨Lease.zero, by decide +kernel, .inl (by decide)⟩

/-- Three addresses, .20 to .22, and two slots. -/
def Sample.shortTable : Setup := ⟨{ config with stop := ip 22 }, []⟩

/-- Clients 7 and 8 have both slots; client 9 is granted the third address. -/
theorem ack_without_slot : ∃ s, serve shortTable 8
        [request (mac 7) (ip 20), request (mac 8) (ip 21),
          request (mac 9) (ip 22)] (boot shortTable 1000 []) = some s ∧
      .ack (mac 9) (ip 22) 7200 1003 ∈ s.out ∧
      ∀ l ∈ s.leases, l.chaddr ≠ mac 9 ∧ l.yiaddr ≠ ip 22 := by
  obtain ⟨s, done, both⟩ := map_eq_some_iff.1
    (show (serve shortTable 8
        [request (mac 7) (ip 20), request (mac 8) (ip 21),
          request (mac 9) (ip 22)]
        (boot shortTable 1000 [])).map (fun s => (s.out, s.leases)) =
      some ([.ack (mac 9) (ip 22) 7200 1003],
        [⟨mac 7, ip 20, 8201, noHostname⟩,
          ⟨mac 8, ip 21, 8202, noHostname⟩]) by decide +kernel)
  obtain ⟨sent, table⟩ := Prod.mk.inj both
  refine ⟨s, done, ?_, ?_⟩
  · rw [sent]
    exact mem_singleton.2 rfl
  · rw [table]
    decide +kernel

end RouterApps.Udhcpd
