/-
# Udhcpd.Reservation -- the static leases

A static lease ties an address and a client to each other: nobody else should get
the address, and the client should get no other (`Agree`).

Two branches of the code break this.  `sendOffer` accepts the requested address of
an unknown client *because* it has a static lease, whoever holds it.  And a client
with an all-zero hardware address is taken for the holder of the first slot whose
holder was blanked, by a DECLINE or a dropped lease.  Without these, and with a
lease file that agrees with the reservations, every address sent agrees with them
(`reservations_exclusive`).

When the holder of a static lease asks for it again after a reboot, without a
record it is refused, because the address it asks for has a static lease, its own.
-/
import RouterApps.Udhcpd.Unique

namespace RouterApps.Udhcpd

open CLib Theory Theory.Table List Option

/-! ## Reservations are exclusive -/

/-- The hardware addresses in use are distinct, so are the addresses, and an entry has both or none.
-/
structure StaticTable (static : List StaticLease) : Prop where
  chaddr : Distinct StaticLease.chaddr blankChaddr static
  yiaddr : Distinct StaticLease.yiaddr 0 static
  used : ∀ e ∈ static, e.chaddr = blankChaddr ↔ e.yiaddr = 0

/-- Every reservation either has both this client and this address, or neither. -/
def Agree (static : List StaticLease) (chaddr : Chaddr) (yiaddr : UInt32) : Prop :=
  ∀ e ∈ static, e.yiaddr ≠ 0 → (e.yiaddr = yiaddr ↔ e.chaddr = chaddr)

instance (static : List StaticLease) (chaddr : Chaddr) (yiaddr : UInt32) : Decidable (Agree static chaddr yiaddr) :=
  inferInstanceAs (Decidable (∀ e ∈ static, _))

/-- The address belongs to a reservation. -/
def Reserved (static : List StaticLease) (yiaddr : UInt32) : Prop :=
  ∃ e ∈ static, e.yiaddr ≠ 0 ∧ e.yiaddr = yiaddr

instance (static : List StaticLease) (yiaddr : UInt32) : Decidable (Reserved static yiaddr) :=
  inferInstanceAs (Decidable (∃ e ∈ static, _))

/-- The slots in use agree with the reservations. -/
def Agreeing (static : List StaticLease) (leases : List Lease) : Prop :=
  ∀ l ∈ leases, l.chaddr ≠ blankChaddr → Agree static l.chaddr l.yiaddr

instance (static : List StaticLease) (leases : List Lease) : Decidable (Agreeing static leases) :=
  inferInstanceAs (Decidable (∀ l ∈ leases, _))

variable {yiaddr : UInt32} {packet : Packet} {setup : Setup}

section

variable {b b' b₁ : Book} {chaddr : Chaddr}

theorem isReserved_iff : setup.isReserved yiaddr = true ↔ ∃ e ∈ setup.static, e.yiaddr = yiaddr := by
  simp [Setup.isReserved, findStaticLeaseByYiaddr]

theorem not_reserved_of_isReserved (unreserved : setup.isReserved yiaddr = false) : ¬ Reserved setup.static yiaddr := by
  rintro ⟨e, member, -, same⟩
  have := isReserved_iff.2 ⟨e, member, same⟩
  rw [unreserved] at this
  cases this

section

variable (table : StaticTable setup.static)

include table

theorem StaticTable.reservation_eq {e : StaticLease}
    (member : e ∈ setup.static) (used : e.yiaddr ≠ 0) : setup.reservation e.chaddr = e.yiaddr := by
  have real : e.chaddr ≠ blankChaddr := fun blank => used ((table.used e member).1 blank)
  unfold Setup.reservation findStaticLeaseByChaddr
  split
  · rename_i e' found
    have same : e'.chaddr = e.chaddr := by simpa using find?_some found
    rw [table.chaddr.eq_of_mem (mem_of_find?_eq_some found) member same (same ▸ real)]
  · rename_i absent
    exact absurd (find?_eq_none.1 absent e member) (by simp)

theorem StaticTable.agree_reservation (has : setup.reservation chaddr ≠ 0) :
    Agree setup.static chaddr (setup.reservation chaddr) := by
  intro e member used
  have own := table.reservation_eq member used
  constructor
  · intro same
    obtain ⟨e', member', same'⟩ : ∃ e' ∈ setup.static, e'.chaddr = chaddr ∧ e'.yiaddr = setup.reservation chaddr := by
      unfold Setup.reservation findStaticLeaseByChaddr at has ⊢
      split at has
      · rename_i e' found
        exact ⟨e', mem_of_find?_eq_some found, by simpa using find?_some found, rfl⟩
      · exact absurd rfl has
    rw [table.yiaddr.eq_of_mem member member' (same.trans same'.2.symm) used]
    exact same'.1
  · rintro rfl
    exact own.symm

theorem StaticTable.agree_of_not_reserved
    (hasNone : setup.reservation chaddr = 0) (unreserved : ¬ Reserved setup.static yiaddr) :
    Agree setup.static chaddr yiaddr := by
  intro e member used
  constructor
  · intro same
    exact absurd ⟨e, member, used, same⟩ unreserved
  · rintro rfl
    exact absurd ((table.reservation_eq member used).symm.trans hasNone) used

end

/-- No unknown client without a reservation asks for a reserved address of the pool, and no request
has an all-zero hardware address while the first blank slot has a reserved one. -/
structure Respects (setup : Setup) (leases : List Lease) (packet : Packet) : Prop where
  discover : packet.type = some .discover → setup.reservation packet.chaddr = 0 →
    findLeaseByChaddr packet.chaddr leases = none → ∀ req, packet.requested = some req →
      setup.config.inPool req = true → ¬ Reserved setup.static req
  request : packet.type = some .request → packet.chaddr = blankChaddr →
    ∀ lease, findLeaseByChaddr blankChaddr leases = some lease → ¬ Reserved setup.static lease.yiaddr

theorem OfferChoice.agree (choice : OfferChoice setup packet b b₁ yiaddr)
    (table : StaticTable setup.static) (respects : Respects setup b.leases packet)
    (type : packet.type = some .discover) : Agree setup.static packet.chaddr yiaddr := by
  cases choice with
  | reserved same has => exact table.agree_reservation has
  | own lease same hasNone found unreserved =>
    exact table.agree_of_not_reserved hasNone (not_reserved_of_isReserved unreserved)
  | requested req same hasNone absent asked inPool allowed =>
    exact table.agree_of_not_reserved hasNone (respects.discover type hasNone absent _ asked inPool)
  | found yiaddr hasNone unreserved free =>
    exact table.agree_of_not_reserved hasNone (not_reserved_of_isReserved unreserved)

theorem AckChoice.agree (choice : AckChoice setup packet b yiaddr)
    (table : StaticTable setup.static) (respects : Respects setup b.leases packet)
    (type : packet.type = some .request) (agreeing : Agreeing setup.static b.leases) :
    Agree setup.static packet.chaddr yiaddr := by
  cases choice with
  | record lease found =>
    obtain ⟨member, same⟩ := findLeaseByChaddr_eq_some found
    by_cases blank : packet.chaddr = blankChaddr
    · have free := respects.request type blank lease (blank ▸ found)
      intro e inside used
      constructor
      · intro taken
        exact absurd ⟨e, inside, used, taken⟩ free
      · intro holder
        exact absurd ((table.used e inside).1 (holder.trans blank)) used
    · rw [← same] at blank ⊢
      exact agreeing lease member blank
  | noRecord yiaddr hasNone absent untaken unreserved =>
    exact table.agree_of_not_reserved hasNone (not_reserved_of_isReserved unreserved)

variable {static : List StaticLease} {leases : List Lease}

theorem Agreeing.addLease (agreeing : Agreeing static leases) (now lease : UInt32) (hostname : CharArray hostnameLen)
    (agree : chaddr ≠ blankChaddr → Agree static chaddr yiaddr) :
    Agreeing static (addLease now chaddr yiaddr lease hostname leases).2 := by
  intro l member real
  rcases mem_addLease member with rfl | rfl | ⟨inside, -⟩
  · exact agree real
  · exact absurd rfl real
  · exact agreeing l inside real

theorem Agreeing.updateFirst (agreeing : Agreeing static leases) {p : Lease → Bool} {f : Lease → Lease}
    (keeps : ∀ l, (f l).chaddr = l.chaddr ∧ (f l).yiaddr = l.yiaddr ∨ (f l).chaddr = blankChaddr) :
    Agreeing static (updateFirst p f leases) := by
  intro l member real
  rcases mem_updateFirst member with inside | ⟨old, found, rfl⟩
  · exact agreeing l inside real
  · rcases keeps old with ⟨hardware, address⟩ | blank
    · rw [hardware] at real ⊢
      rw [address]
      exact agreeing old (mem_of_find?_eq_some found) real
    · exact absurd blank real

theorem Probing.agreeing (probing : Probing setup b b')
    (agreeing : Agreeing setup.static b.leases) : Agreeing setup.static b'.leases := by
  induction probing with
  | done b => exact agreeing
  | free d rest ih => exact ih agreeing
  | taken d addr allowed rest ih =>
    refine ih ?_
    unfold Book.conflict
    simp only []
    -- a slot taken out of circulation has no holder
    split <;> exact agreeing.addLease _ _ _ fun real => absurd rfl real

theorem Turn.agreeing (turn : Turn setup packet b b') (table : StaticTable setup.static)
    (respects : Respects setup b.leases packet) (agreeing : Agreeing setup.static b.leases) :
    Agreeing setup.static b'.leases := by
  cases turn with
  | quiet | nak | inform => exact agreeing
  | search type probing => exact probing.agreeing agreeing
  | withhold type probing choice real | offer type probing choice real =>
    exact (probing.agreeing agreeing).addLease _ _ _ fun _ => choice.agree table respects type
  | ack type choice =>
    exact agreeing.addLease _ _ _ fun _ => choice.agree table respects type agreeing
  | drop | decline => exact agreeing.updateFirst fun _ => .inr rfl
  | release => exact agreeing.updateFirst fun _ => .inl ⟨rfl, rfl⟩

theorem Turn.assigned_agree (turn : Turn setup packet b b') (fresh : b.out = [])
    (table : StaticTable setup.static) (respects : Respects setup b.leases packet)
    (agreeing : Agreeing setup.static b.leases) {clock : Nat}
    (assigned : Assigned b'.out chaddr yiaddr clock) : Agree setup.static chaddr yiaddr := by
  obtain ⟨rfl, ⟨b₁, type, probing, choice, -, -⟩ | ⟨type, choice, -⟩⟩ := turn.assigned fresh assigned
  · exact choice.agree table respects type
  · exact choice.agree table respects type agreeing

end

/-- **Reservations are exclusive in both directions**, from a lease file that agrees with them and
with messages as `Respects` says. -/
theorem reservations_exclusive (setup : Setup) (table : StaticTable setup.static) (clock : Nat)
    (file : List UInt8) (booted : Agreeing setup.static (boot setup clock file).leases) (ms : List Message) (s : Server)
    (run : Run (fun s m s' => Step setup s m s' ∧ Respects setup s.leases m.packet) (boot setup clock file) ms s)
    (chaddr : Chaddr) (yiaddr : UInt32) (t : Nat) (assigned : Assigned s.out chaddr yiaddr t) :
    Agree setup.static chaddr yiaddr := by
  have holds := run.invariant
    (I := fun s => Agreeing setup.static s.leases ∧
      ∀ chaddr yiaddr t, Assigned s.out chaddr yiaddr t → Agree setup.static chaddr yiaddr)
    (fun s m s' ⟨agreeing, _⟩ ⟨step, respects⟩ =>
      ⟨step.turn.agreeing table respects agreeing, fun _ _ _ assigned =>
        step.turn.assigned_agree rfl table respects agreeing assigned⟩)
    ⟨booted, fun _ _ _ none => absurd none not_assigned_nil⟩
  exact holds.2 chaddr yiaddr t assigned

open Sample

/-- The address .20 is reserved for client 1. -/
def Sample.reserved : Setup := ⟨config, [⟨mac 1, ip 20, 0⟩, StaticLease.zero]⟩

theorem Sample.reserved_table : StaticTable reserved.static := by
  constructor <;> decide

/-- Client 1 asks for any address and gets its own. -/
theorem reservations_exclusive_sample :
    ∃ s, Step reserved (boot reserved 1000 []) (discover (mac 1) none) s ∧
      Assigned s.out (mac 1) (ip 20) 1001 ∧
      Agree reserved.static (mac 1) (ip 20) := by
  obtain ⟨s, done, sent⟩ := map_eq_some_iff.1
    (show (handle reserved 8 env (discover (mac 1) none).packet
        (boot reserved 1000 [])).map (·.out) =
          some [.offer (mac 1) (ip 20) 7200 1001] by decide +kernel)
  have step : Step reserved (boot reserved 1000 []) (discover (mac 1) none) s := ⟨8, done⟩
  have assigned : Assigned s.out (mac 1) (ip 20) 1001 :=
    ⟨7200, .inl (by rw [sent]; exact mem_singleton.2 rfl)⟩
  refine ⟨s, step, assigned, reservations_exclusive reserved reserved_table 1000 []
    (by decide +kernel) _ s (.cons ⟨step, ⟨?_, ?_⟩⟩ (.nil _)) _ _ _ assigned⟩
  · intro _ hasNone
    exact absurd hasNone (by decide +kernel)
  · intro request
    exact absurd request (by decide)

/-- Client 2 asks for the address reserved for client 1 and is offered it. -/
theorem reservation_offered_to_another : StaticTable reserved.static ∧
      ∃ s, serve reserved 8 [discover (mac 2) (some (ip 20))]
          (boot reserved 1000 []) = some s ∧
        Assigned s.out (mac 2) (ip 20) 1001 ∧
        ¬ Agree reserved.static (mac 2) (ip 20) := by
  refine ⟨reserved_table, ?_⟩
  obtain ⟨s, done, sent⟩ := map_eq_some_iff.1
    (show (serve reserved 8 [discover (mac 2) (some (ip 20))]
        (boot reserved 1000 [])).map (·.out) =
          some [.offer (mac 2) (ip 20) 7200 1001] by decide +kernel)
  exact ⟨s, done, ⟨7200, .inl (by rw [sent]; exact mem_singleton.2 rfl)⟩, by decide⟩

/-! ## Coming back with a reservation -/

section

variable {env : Env}

/-- An expired slot of the address is dropped, and otherwise its holder is refused. -/
theorem requestNoRecord_reserved {s : Server} (unaddressed : packet.serverId = none)
    (asked : packet.requested = some yiaddr) (holds : setup.reservation packet.chaddr = yiaddr) (real : yiaddr ≠ 0) :
    requestNoRecord setup env packet s =
      if ∃ lease, findLeaseByYiaddr yiaddr s.leases = some lease ∧ leaseExpired s.time lease = true
      then dropHolder yiaddr s else sendNAK env packet s := by
  have reserved : (findStaticLeaseByYiaddr yiaddr setup.static).isSome = true := by
    have := isReserved_of_reservation (holds ▸ real)
    rwa [holds] at this
  have own : findStaticLeaseByChaddr packet.chaddr setup.static = yiaddr := holds
  unfold requestNoRecord
  simp only [unaddressed, asked, own]
  cases found : findLeaseByYiaddr yiaddr s.leases with
  | some lease => simp
  | none =>
    -- in the pool or not, the address has a static lease
    simp [reserved]

theorem Step.request_noRecord {s s' : Server} {m : Message} (step : Step setup s m s')
    (type : m.packet.type = some .request) (absent : findLeaseByChaddr m.packet.chaddr s.leases = none) :
    s'.out = if m.env.autoDetect then [] else
      (requestNoRecord setup m.env m.packet (s.receive m.env)).out := by
  obtain ⟨fuel, done⟩ := step
  simp only [handle, type] at done
  split at done
  · rename_i detecting
    cases done
    rw [if_pos detecting]
    rfl
  · rename_i quiet
    cases done
    have absent' : findLeaseByChaddr m.packet.chaddr (s.receive m.env).leases = none := absent
    rw [if_neg quiet]
    simp only [handleRequest, absent']
    rfl

end

/-- **A client with a static lease is refused its own address**, unless the table still has an
expired slot for it. -/
theorem rejoin_not_naked_iff (setup : Setup) (s s' : Server) (m : Message) (step : Step setup s m s')
    (yiaddr : UInt32) (real : yiaddr ≠ 0) (holds : setup.reservation m.packet.chaddr = yiaddr)
    (absent : findLeaseByChaddr m.packet.chaddr s.leases = none)
    (type : m.packet.type = some .request) (unaddressed : m.packet.serverId = none)
    (asked : m.packet.requested = some yiaddr) : Event.nak m.packet.chaddr ∉ s'.out ↔
      m.env.autoDetect = true ∨ m.env.sendOk = false ∨
        ∃ lease, findLeaseByYiaddr yiaddr s.leases = some lease ∧
          leaseExpired (UInt32.ofNat (s.clock + m.env.elapsed)) lease = true := by
  rw [step.request_noRecord type absent, requestNoRecord_reserved unaddressed asked holds real]
  by_cases detecting : m.env.autoDetect = true
  · simp [detecting]
  rw [if_neg detecting]
  by_cases expired : ∃ lease, findLeaseByYiaddr yiaddr (s.receive m.env).leases = some lease ∧
      leaseExpired (s.receive m.env).time lease = true
  · rw [if_pos expired]
    constructor
    · intro _
      exact .inr (.inr expired)
    · intro _ sent
      cases sent
  · rw [if_neg expired]
    unfold sendNAK Server.send
    split
    · rename_i sends
      constructor
      · intro none
        exact absurd (mem_singleton.2 rfl) none
      · rintro (h | h | h)
        · exact absurd h detecting
        · simp [sends] at h
        · exact absurd h expired
    · rename_i fails
      constructor
      · intro _
        exact .inr (.inl (by simpa using fails))
      · intro _ sent
        cases sent

/-- Right after start-up client 1 asks for the address reserved for it, which nobody
holds, and is refused. -/
theorem rejoin_naked : reserved.reservation (mac 1) = ip 20 ∧
      (∀ l ∈ (boot reserved 1000 []).leases, l.chaddr ≠ mac 1 ∧ l.yiaddr ≠ ip 20) ∧
      ∃ s, serve reserved 8 [request (mac 1) (ip 20)]
          (boot reserved 1000 []) = some s ∧ .nak (mac 1) ∈ s.out := by
  refine ⟨by decide +kernel, by decide +kernel, ?_⟩
  obtain ⟨s, done, sent⟩ := map_eq_some_iff.1
    (show (serve reserved 8 [request (mac 1) (ip 20)]
        (boot reserved 1000 [])).map (·.out) = some [.nak (mac 1)] by decide +kernel)
  exact ⟨s, done, by rw [sent]; exact mem_singleton.2 rfl⟩

/-- The lease file still has the reserved address, expired: client 1 is not refused. -/
theorem rejoin_not_naked_expired :
    let file := writeLeases config 0 [⟨mac 2, ip 20, 1, noHostname⟩]
    let m := after 9 (request (mac 1) (ip 20))
    ∃ s, Step reserved (boot reserved 1000 file) m s ∧ .nak (mac 1) ∉ s.out := by
  intro file m
  obtain ⟨s, done⟩ := isSome_iff_exists.1
    (show (handle reserved 8 m.env m.packet (boot reserved 1000 file)).isSome = true by
      decide +kernel)
  refine ⟨s, ⟨8, done⟩, (rejoin_not_naked_iff reserved _ s m ⟨8, done⟩ (ip 20)
    (by decide +kernel) (by decide +kernel) (by decide +kernel) (by decide) rfl rfl).2
    (.inr (.inr ⟨⟨mac 2, ip 20, 1001, noHostname⟩, ?_, ?_⟩))⟩
  all_goals decide +kernel

end RouterApps.Udhcpd
