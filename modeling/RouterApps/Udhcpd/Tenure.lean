/-
# Udhcpd.Tenure -- a slot keeps its address until it expires

`Tenure chaddr yiaddr expires b` says that the slot with these three values is in
the table as long as the time has not passed `expires`.  While it is there its
address is not `Lapsed`, so no search returns it, and every lookup of the address
comes to it.  The one way left to the address is a message that finds the slot by
hardware address.

So a client that was granted an address has it for itself until the grant ends
(`no_double_assignment`), and an address that was taken out of circulation stays
out (`quarantine_respected`), unless a message with an all-zero hardware address
finds the slot, whose own hardware address is blank.
-/
import RouterApps.Udhcpd.Unique

namespace RouterApps.Udhcpd

open CLib Theory Theory.Table List Option

/-! ## A slot that stays -/

/-- The table has a slot with these values. -/
def Holds (chaddr : Chaddr) (yiaddr expires : UInt32) (leases : List Lease) : Prop :=
  ∃ l ∈ leases, l.chaddr = chaddr ∧ l.yiaddr = yiaddr ∧ l.expires = expires

instance (chaddr : Chaddr) (yiaddr expires : UInt32) (leases : List Lease) :
    Decidable (Holds chaddr yiaddr expires leases) :=
  inferInstanceAs (Decidable (∃ l ∈ leases, _))

/-- The slot is there until it expires. -/
structure Tenure (chaddr : Chaddr) (yiaddr expires : UInt32) (b : Book) : Prop where
  unique : Unique b.leases
  holds : b.clock ≤ expires.toNat → Holds chaddr yiaddr expires b.leases

/-- The message finds, by its hardware address, a slot with the address. -/
def Finds (packet : Packet) (leases : List Lease) (yiaddr : UInt32) : Prop :=
  ∃ lease, findLeaseByChaddr packet.chaddr leases = some lease ∧ lease.yiaddr = yiaddr

variable {yiaddr expires : UInt32} {packet : Packet} {setup : Setup}

section

variable {b b' b₁ : Book}
  {chaddr : Chaddr}

theorem not_lt_ofNat_of_le {c : Nat} (le : c ≤ expires.toNat) : ¬ expires < UInt32.ofNat c := by
  have := Nat.mod_le c (2 ^ 32)
  rw [UInt32.lt_iff_toNat_lt, UInt32.toNat_ofNat']
  omega

variable {leases : List Lease} {addr : UInt32}

section

variable (held : Holds chaddr yiaddr expires leases)

include held

theorem Holds.find_ne_none : findLeaseByYiaddr yiaddr leases ≠ none := by
  obtain ⟨l, inside, -, address, -⟩ := held
  intro none
  exact findLeaseByYiaddr_eq_none.1 none l inside address

variable (unique : Unique leases)

include unique

theorem Holds.eq_of_mem (real : yiaddr ≠ 0) {lease : Lease} (member : lease ∈ leases)
    (same : lease.yiaddr = yiaddr) : lease.chaddr = chaddr ∧ lease.expires = expires := by
  obtain ⟨l, inside, hardware, address, ending⟩ := held
  have eq : lease = l := unique.yiaddr.eq_of_mem member inside (same.trans address.symm) (same ▸ real)
  rw [eq]
  exact ⟨hardware, ending⟩

/-- The holder's own lookup finds the slot, if the holder has a hardware address. -/
theorem Holds.finds (client : chaddr ≠ blankChaddr) (sender : packet.chaddr = chaddr) : Finds packet leases yiaddr := by
  obtain ⟨l, inside, hardware, address, -⟩ := held
  cases found : findLeaseByChaddr packet.chaddr leases with
  | none => exact absurd (hardware.trans sender.symm) (findLeaseByChaddr_eq_none.1 found l inside)
  | some lease =>
    obtain ⟨member, same⟩ := findLeaseByChaddr_eq_some found
    have own : lease.chaddr = chaddr := same.trans sender
    have eq : lease = l := unique.chaddr.eq_of_mem member inside (own.trans hardware.symm) (own ▸ client)
    exact ⟨lease, found, eq ▸ address⟩

theorem Holds.sender_of_finds (real : yiaddr ≠ 0) (finds : Finds packet leases yiaddr) : packet.chaddr = chaddr := by
  obtain ⟨lease, found, address⟩ := finds
  obtain ⟨member, same⟩ := findLeaseByChaddr_eq_some found
  exact same.symm.trans (held.eq_of_mem unique real member address).1

end

section

variable (tenure : Tenure chaddr yiaddr expires b)

include tenure

theorem Tenure.not_lapsed (real : yiaddr ≠ 0) (now : b.clock ≤ expires.toNat) : ¬ Lapsed b yiaddr := by
  intro lapsed
  have held := tenure.holds now
  obtain ⟨lease, found⟩ := ne_none_iff_exists'.1 held.find_ne_none
  obtain ⟨member, address⟩ := findLeaseByYiaddr_eq_some found
  obtain ⟨c, past, expired⟩ := lapsed lease found
  rw [leaseExpired, (held.eq_of_mem tenure.unique real member address).2, decide_eq_true_eq] at expired
  exact not_lt_ofNat_of_le (past.trans now) expired

theorem Tenure.wait (d : Nat) : Tenure chaddr yiaddr expires (b.wait d) :=
  ⟨tenure.unique, fun now => tenure.holds ((Nat.le_add_right _ _).trans now)⟩

theorem Tenure.next (d : Nat) : Tenure chaddr yiaddr expires (b.next d) :=
  ⟨tenure.unique, fun now => tenure.holds ((Nat.le_add_right _ _).trans now)⟩

theorem Tenure.addLease (client : Chaddr) (addr lease : UInt32) (hostname : CharArray hostnameLen)
    (other : b.clock ≤ expires.toNat → (client ≠ blankChaddr → client ≠ chaddr) ∧ addr ≠ yiaddr) :
    Tenure chaddr yiaddr expires (b.addLease client addr lease hostname).2 := by
  refine ⟨tenure.unique.addLease _ _ _ _ _, fun now => ?_⟩
  obtain ⟨l, inside, hardware, address, ending⟩ := tenure.holds now
  obtain ⟨client', addr'⟩ := other now
  have apart : Apart client addr l :=
    ⟨fun used same => client' used (same.symm.trans hardware), fun _ same => addr' (same.symm.trans address)⟩
  have live : b.time ≤ l.expires := by
    rw [ending]
    exact UInt32.not_lt.1 (not_lt_ofNat_of_le now)
  exact ⟨l, addLease_keeps inside apart live, hardware, address, ending⟩

theorem Tenure.conflict (other : b.clock ≤ expires.toNat → addr ≠ yiaddr) (config : ServerConfig) :
    Tenure chaddr yiaddr expires (b.conflict config addr) := by
  have added := tenure.addLease blankChaddr addr config.conflictTime noHostname fun now => ⟨fun used => absurd rfl used, other now⟩
  unfold Book.conflict
  simp only []
  split
  · exact ⟨added.unique, added.holds⟩
  · exact added

/-- Rewriting another slot leaves the slot alone. -/
theorem Tenure.update {p : Lease → Bool} {f : Lease → Lease}
    (hardware : ∀ l, (f l).chaddr = l.chaddr ∨ (f l).chaddr = blankChaddr) (address : ∀ l, (f l).yiaddr = l.yiaddr)
    (other : b.clock ≤ expires.toNat → ∀ lease, b.leases.find? p = some lease →
      lease.yiaddr = yiaddr → lease.expires ≠ expires) : Tenure chaddr yiaddr expires (b.update p f) := by
  refine ⟨tenure.unique.updateFirst p f hardware address, fun now => ?_⟩
  obtain ⟨l, inside, h, a, e⟩ := tenure.holds now
  refine ⟨l, mem_updateFirst_of_ne inside fun lease found => ?_, h, a, e⟩
  rintro rfl
  exact other now l found a e

end

/-! ## Probes and turns -/

theorem Probing.clock_le (probing : Probing setup b b') : b.clock ≤ b'.clock := by
  induction probing with
  | done b => exact le_rfl
  | free d rest ih => exact (Nat.le_add_right _ _).trans ih
  | @taken b b' d addr allowed rest ih =>
    have same : ((b.wait d).conflict setup.config addr).clock = b.clock + d := by
      unfold Book.conflict
      simp only []
      split <;> rfl
    rw [same] at ih
    exact (Nat.le_add_right _ _).trans ih

/-- A held address is acknowledged only if the message finds its slot. -/
theorem AckChoice.finds (choice : AckChoice setup packet b yiaddr)
    (held : Holds chaddr yiaddr expires b.leases) : Finds packet b.leases yiaddr := by
  cases choice with
  | record lease found => exact ⟨lease, found, rfl⟩
  | noRecord _ hasNone absent untaken unreserved => exact absurd untaken held.find_ne_none

theorem AckChoice.of_holder (choice : AckChoice setup packet b addr)
    (held : Holds chaddr yiaddr expires b.leases) (unique : Unique b.leases)
    (client : packet.chaddr ≠ blankChaddr) (sender : packet.chaddr = chaddr) : addr = yiaddr := by
  obtain ⟨lease, found, address⟩ := held.finds unique (sender ▸ client) sender
  cases choice with
  | record lease' found' =>
    rw [found] at found'
    cases found'
    exact address
  | noRecord _ hasNone absent untaken _ =>
    rw [absent] at found
    cases found

section

variable (real : yiaddr ≠ 0) (unreserved : setup.isReserved yiaddr = false)

include real unreserved

/-- Probes leave a held address alone: it is neither reserved nor lapsed. -/
theorem Probing.tenure (probing : Probing setup b b') (tenure : Tenure chaddr yiaddr expires b) :
    Tenure chaddr yiaddr expires b' := by
  induction probing with
  | done b => exact tenure
  | free d rest ih => exact ih (tenure.wait d)
  | taken d addr allowed rest ih =>
    refine ih ((tenure.wait d).conflict (fun now => ?_) setup.config)
    rintro rfl
    rcases allowed with reserved | lapsed
    · rw [unreserved] at reserved
      cases reserved
    · exact tenure.not_lapsed real ((Nat.le_add_right _ _).trans now) lapsed

/-- A held address is chosen for an offer only if the message finds its slot. -/
theorem OfferChoice.finds (choice : OfferChoice setup packet b b₁ yiaddr) (tenure : Tenure chaddr yiaddr expires b₁)
    (now : b₁.clock ≤ expires.toNat) : b₁ = b ∧ Finds packet b.leases yiaddr := by
  cases choice with
  | reserved same has =>
    rw [isReserved_of_reservation has] at unreserved
    cases unreserved
  | own lease same hasNone found _ => exact ⟨same, lease, found, rfl⟩
  | requested _ same hasNone absent asked inPool allowed =>
    rcases allowed with reserved | lapsed
    · rw [unreserved] at reserved
      cases reserved
    · exact absurd lapsed (tenure.not_lapsed real now)
  | found _ hasNone _ free => exact absurd free (tenure.not_lapsed real now)

theorem OfferChoice.elsewhere (choice : OfferChoice setup packet b b₁ addr) (probing : Probing setup b b₁)
    (tenure : Tenure chaddr yiaddr expires b) (unseen : b.clock ≤ expires.toNat → ¬ Finds packet b.leases yiaddr)
    (now : b₁.clock ≤ expires.toNat) : (packet.chaddr ≠ blankChaddr → packet.chaddr ≠ chaddr) ∧ addr ≠ yiaddr := by
  have before := probing.clock_le.trans now
  constructor
  · rintro client sender
    exact unseen before ((tenure.holds before).finds tenure.unique (sender ▸ client) sender)
  · rintro rfl
    have kept := probing.tenure real unreserved tenure
    exact unseen before (choice.finds real unreserved kept now).2

/-- No discover, decline or release, and the address is not acknowledged. -/
def Harmless (packet : Packet) (yiaddr : UInt32) (out : List Event) : Prop :=
  packet.type ≠ some .discover ∧ packet.type ≠ some .decline ∧ packet.type ≠ some .release ∧
    ∀ leaseTime t, .ack packet.chaddr yiaddr leaseTime t ∉ out

theorem Turn.tenure (turn : Turn setup packet b b') (tenure : Tenure chaddr yiaddr expires b)
    (harmless : b.clock ≤ expires.toNat → Finds packet b.leases yiaddr →
      Harmless packet yiaddr b'.out) : Tenure chaddr yiaddr expires b' := by
  have unseen : packet.type = some .discover → b.clock ≤ expires.toNat →
      ¬ Finds packet b.leases yiaddr := fun type now finds => (harmless now finds).1 type
  cases turn with
  | quiet => exact tenure
  | nak | inform => exact ⟨tenure.unique, tenure.holds⟩
  | search type probing => exact probing.tenure real unreserved tenure
  | withhold type probing choice _ =>
    exact (probing.tenure real unreserved tenure).addLease _ _ _ _
      (choice.elsewhere real unreserved probing tenure (unseen type))
  | offer type probing choice _ =>
    have kept := (probing.tenure real unreserved tenure).addLease _ _ setup.config.offerTime
      noHostname (choice.elsewhere real unreserved probing tenure (unseen type))
    exact ⟨kept.unique, kept.holds⟩
  | @ack addr leaseTime hostname type choice =>
    have emitted : Tenure chaddr yiaddr expires
        (b.emit (.ack packet.chaddr addr leaseTime b.clock)) := ⟨tenure.unique, tenure.holds⟩
    refine emitted.addLease _ _ _ _ fun now => ?_
    have elsewhere : addr ≠ yiaddr := by
      rintro rfl
      have finds := choice.finds (tenure.holds now)
      exact (harmless now finds).2.2.2 leaseTime b.clock (mem_append_right _ (mem_singleton.2 rfl))
    refine ⟨fun client sender => elsewhere ?_, elsewhere⟩
    exact choice.of_holder (tenure.holds now) tenure.unique client sender
  | drop addr type absent found expired =>
    refine tenure.update (fun _ => .inr rfl) (fun _ => rfl) fun now lease found' address ending => ?_
    have same : lease = _ := Option.some.inj (found'.symm.trans found)
    rw [← same, leaseExpired, ending, decide_eq_true_eq] at expired
    exact not_lt_ofNat_of_le now expired
  | @decline lease type found =>
    have emitted : Tenure chaddr yiaddr expires (b.emit (.reserved lease.yiaddr (b.time + setup.config.declineTime))) :=
      ⟨tenure.unique, tenure.holds⟩
    refine emitted.update (fun _ => .inr rfl) (fun _ => rfl) fun now lease found address => ?_
    exact absurd type (harmless now ⟨lease, found, address⟩).2.1
  | release type =>
    refine tenure.update (fun _ => .inl rfl) (fun _ => rfl) fun now lease found address => ?_
    exact absurd type (harmless now ⟨lease, found, address⟩).2.2.1

theorem Turn.finds_of_assigned (turn : Turn setup packet b b') (fresh : b.out = [])
    (tenure : Tenure chaddr yiaddr expires b) {client : Chaddr} {t : Nat}
    (assigned : Assigned b'.out client yiaddr t) (now : t ≤ expires.toNat) :
    packet.chaddr = client ∧ b.clock ≤ expires.toNat ∧ Finds packet b.leases yiaddr := by
  obtain ⟨sender, ⟨b₁, type, probing, choice, -, rfl⟩ | ⟨type, choice, rfl⟩⟩ := turn.assigned fresh assigned
  · have kept := probing.tenure real unreserved tenure
    exact ⟨sender, probing.clock_le.trans now, (choice.finds real unreserved kept now).2⟩
  · exact ⟨sender, now, choice.finds (tenure.holds now)⟩

end

end

/-! ## No double assignment -/

/-- The client does not discover, decline or release, and does not get the address
acknowledged again. -/
def Undisturbed (chaddr : Chaddr) (yiaddr : UInt32) (m : Message) (s' : Server) : Prop :=
  m.packet.chaddr = chaddr → Harmless m.packet yiaddr s'.out

variable {m : Message}

theorem Step.tenure {setup : Setup} {s s' : Server} {chaddr : Chaddr}
    {yiaddr expires : UInt32} (step : Step setup s m s') (real : yiaddr ≠ 0)
    (unreserved : setup.isReserved yiaddr = false) (undisturbed : Undisturbed chaddr yiaddr m s')
    (tenure : Tenure chaddr yiaddr expires s.toBook) : Tenure chaddr yiaddr expires s'.toBook := by
  have before := tenure.next m.env.elapsed
  refine step.turn.tenure real unreserved before fun now finds => undisturbed ?_
  exact (before.holds now).sender_of_finds before.unique real finds

open Sample

/-- A pool that starts at 0.0.0.0, with 0.0.0.3 reserved for client 2. -/
def Sample.zeroPool : Setup :=
  ⟨{ config with start := 0, stop := leWord [0, 0, 0, 5], maxLeases := 3 }, [⟨mac 2, leWord [0, 0, 0, 3], 0⟩]⟩

/-- Its lease file: the last slot expires a second after start-up. -/
def Sample.zeroPoolFile : List UInt8 :=
  writeLeases zeroPool.config 0
    [⟨mac 2, leWord [0, 0, 0, 2], 5000, noHostname⟩, ⟨mac 3, leWord [0, 0, 0, 3], 5000, noHostname⟩,
      ⟨mac 5, leWord [0, 0, 0, 5], 1, noHostname⟩]

section

variable {b b' : Book}

theorem Book.conflict_tenure (b : Book) (config : ServerConfig) (addr : UInt32)
    (unique : Unique b.leases) (kept : (b.conflict config addr).out ≠ b.out) :
    Tenure blankChaddr addr (b.time + config.conflictTime) (b.conflict config addr) := by
  unfold Book.conflict at kept ⊢
  simp only [] at kept ⊢
  split at kept
  · rename_i added
    rw [if_pos added]
    obtain ⟨i, slot⟩ := isSome_iff_exists.1 added
    have stored := addLease_stores (Prod.ext slot rfl)
    exact ⟨unique.addLease _ _ _ _ _, fun _ => ⟨_, stored, rfl, rfl, rfl⟩⟩
  · exact absurd rfl kept

variable (real : yiaddr ≠ 0) (unreserved : setup.isReserved yiaddr = false)

include real unreserved

theorem Probing.quarantine (probing : Probing setup b b') (unique : Unique b.leases)
    (kept : .reserved yiaddr expires ∈ b'.out) :
    .reserved yiaddr expires ∈ b.out ∨ Tenure blankChaddr yiaddr expires b' := by
  induction probing with
  | done b => exact .inl kept
  | free d rest ih => exact ih unique kept
  | @taken b b' d addr allowed rest ih =>
    have unique' : Unique ((b.wait d).conflict setup.config addr).leases :=
      (Probing.taken d addr allowed (.done _)).unique unique
    rcases ih unique' kept with earlier | held
    · rcases Book.conflict_out (b.wait d) setup.config addr with same | more
      · rw [same] at earlier
        exact .inl earlier
      · rw [more] at earlier
        rcases mem_append.1 earlier with before | this
        · exact .inl before
        · cases mem_singleton.1 this
          have changed : ((b.wait d).conflict setup.config yiaddr).out ≠ (b.wait d).out := by
            rw [more]
            simp
          exact .inr (rest.tenure real unreserved ((b.wait d).conflict_tenure setup.config yiaddr unique changed))
    · exact .inr held

/-- The slot for the address is left behind, and it is not assigned before. -/
theorem Turn.quarantine (turn : Turn setup packet b b') (fresh : b.out = []) (unique : Unique b.leases)
    (kept : .reserved yiaddr expires ∈ b'.out) : Tenure blankChaddr yiaddr expires b' ∧
      ∀ client t, Assigned b'.out client yiaddr t → expires.toNat < t := by
  have searched : ∀ {b₁ : Book}, Probing setup b b₁ → .reserved yiaddr expires ∈ b₁.out →
      Tenure blankChaddr yiaddr expires b₁ := by
    intro b₁ probing kept
    refine (probing.quarantine real unreserved unique kept).resolve_left ?_
    rw [fresh]
    exact not_mem_nil
  -- the address itself is not chosen: its own slot would have been found without a probe
  have elsewhere : ∀ {b₁ : Book} {addr : UInt32}, Probing setup b b₁ →
      .reserved yiaddr expires ∈ b₁.out → OfferChoice setup packet b b₁ addr →
      b₁.clock ≤ expires.toNat → addr ≠ yiaddr := by
    intro b₁ addr probing kept choice now
    rintro rfl
    obtain ⟨rfl, -⟩ := choice.finds real unreserved (searched probing kept) now
    rw [fresh] at kept
    cases kept
  cases turn with
  | quiet | drop | release =>
    have before : .reserved yiaddr expires ∈ b.out := kept
    rw [fresh] at before
    cases before
  | nak | inform | ack => simp [Book.emit, Book.addLease, fresh] at kept
  | search type probing =>
    exact ⟨searched probing kept, fun client t assigned =>
      (probing.not_assigned fresh assigned).elim⟩
  | withhold type probing choice _ =>
    exact ⟨(searched probing kept).addLease _ _ _ _ fun now =>
      ⟨fun client => client, elsewhere probing kept choice now⟩,
      fun client t assigned => (probing.not_assigned fresh assigned).elim⟩
  | @offer b₁ addr leaseTime type probing choice _ =>
    have before : .reserved yiaddr expires ∈ b₁.out := by
      rcases mem_append.1 kept with earlier | last
      · exact earlier
      · cases mem_singleton.1 last
    have added := (searched probing before).addLease packet.chaddr addr setup.config.offerTime
      noHostname fun now => ⟨fun client => client, elsewhere probing before choice now⟩
    refine ⟨⟨added.unique, added.holds⟩, fun client t assigned => ?_⟩
    by_contra early
    obtain ⟨leaseTime', h | h⟩ := assigned <;> rcases mem_append.1 h with earlier | last
    · exact probing.not_assigned fresh ⟨leaseTime', .inl earlier⟩
    · cases mem_singleton.1 last
      exact elsewhere probing before choice (Nat.not_lt.1 early) rfl
    · exact probing.not_assigned fresh ⟨leaseTime', .inr earlier⟩
    · cases mem_singleton.1 last
  | @decline lease type found =>
    simp only [Book.update, Book.emit, fresh, nil_append, mem_singleton] at kept
    obtain ⟨rfl, rfl⟩ := kept
    refine ⟨⟨unique.updateFirst _ _ (fun _ => .inr rfl) (fun _ => rfl), fun _ => ?_⟩, ?_⟩
    · exact ⟨_, mem_updateFirst_of_find found, rfl, rfl, rfl⟩
    · intro client t assigned
      simp [Assigned, Book.update, Book.emit, fresh] at assigned

end

/-- The message is not from an all-zero hardware address that finds the slot of
`yiaddr`. -/
def NotBlankFinder (yiaddr : UInt32) (leases : List Lease) (packet : Packet) : Prop :=
  packet.chaddr = blankChaddr → ¬ Finds packet leases yiaddr

theorem Step.quarantine {setup : Setup} {s s' : Server} {yiaddr expires : UInt32}
    (step : Step setup s m s') (real : yiaddr ≠ 0) (unreserved : setup.isReserved yiaddr = false)
    (tenure : Tenure blankChaddr yiaddr expires s.toBook) (seen : NotBlankFinder yiaddr s.leases m.packet) :
    Tenure blankChaddr yiaddr expires s'.toBook ∧ ∀ client t, Assigned s'.out client yiaddr t → expires.toNat < t := by
  have before := tenure.next m.env.elapsed
  have unfound : (s.toBook.next m.env.elapsed).clock ≤ expires.toNat → ¬ Finds m.packet s.leases yiaddr := by
    intro now finds
    exact seen ((before.holds now).sender_of_finds before.unique real finds) finds
  refine ⟨step.turn.tenure real unreserved before fun now finds => absurd finds (unfound now), ?_⟩
  intro client t assigned
  by_contra early
  obtain ⟨-, now, finds⟩ := step.turn.finds_of_assigned real unreserved rfl before assigned (Nat.not_lt.1 early)
  exact unfound now finds

/-- **Quarantine is respected.**  An address that is taken out of circulation until `expires` is not
offered or acknowledged before, provided no message with an all-zero hardware address finds its
slot. -/
theorem quarantine_respected (setup : Setup) (clock : Nat) (file : List UInt8)
    (ms₁ : List Message) (s₁ : Server) (reached : Run (Step setup) (boot setup clock file) ms₁ s₁)
    (yiaddr : UInt32) (real : yiaddr ≠ 0) (unreserved : setup.isReserved yiaddr = false)
    (expires : UInt32) (m : Message) (s₂ : Server) (step : Step setup s₁ m s₂)
    (kept : .reserved yiaddr expires ∈ s₂.out) (ms₂ : List Message) (s₃ : Server)
    (run : Run (fun s m s' => Step setup s m s' ∧ NotBlankFinder yiaddr s.leases m.packet) s₂ ms₂ s₃)
    (client : Chaddr) (t : Nat) (assigned : Assigned s₃.out client yiaddr t) : expires.toNat < t := by
  have unique : Unique s₁.leases := Run.unique reached (initialLeases_unique _ _ file)
  have holds := run.invariant
   
    (fun _ _ _ held step => step.1.quarantine real unreserved held.1 step.2)
    (step.turn.quarantine real unreserved rfl unique kept)
  exact holds.2 client t assigned

/-- Somebody answers the probe for .20 at 1003, so it is kept until 4603; at 5004 it is
offered to client 8. -/
theorem quarantine_respected_sample : ∃ s₁ s₂, Step ⟨config, []⟩ (boot ⟨config, []⟩ 1000 [])
        (answered (discover (mac 7) none)) s₁ ∧
      .reserved (ip 20) 4603 ∈ s₁.out ∧
      Step ⟨config, []⟩ s₁ (after 4001 (discover (mac 8) (some (ip 20)))) s₂ ∧
      Assigned s₂.out (mac 8) (ip 20) 5004 ∧ (4603 : UInt32).toNat < 5004 := by
  let first := answered (discover (mac 7) none)
  let second := after 4001 (discover (mac 8) (some (ip 20)))
  obtain ⟨s₁, served, both⟩ := map_eq_some_iff.1
    (show (handle ⟨config, []⟩ 8 first.env first.packet
        (boot ⟨config, []⟩ 1000 [])).map (fun s₁ => (s₁.out,
          (handle ⟨config, []⟩ 8 second.env second.packet s₁).map (·.out))) =
        some ([.reserved (ip 20) 4603, .offer (mac 7) (ip 21) 7200 1003],
          some [.offer (mac 8) (ip 20) 7200 5004]) by decide +kernel)
  obtain ⟨reported, sent⟩ := Prod.mk.inj both
  obtain ⟨s₂, done, out⟩ := map_eq_some_iff.1 sent
  have kept : .reserved (ip 20) 4603 ∈ s₁.out := by
    rw [reported]
    exact mem_cons_self
  have step₁ : Step ⟨config, []⟩ (boot ⟨config, []⟩ 1000 []) first s₁ := ⟨8, served⟩
  have step₂ : Step ⟨config, []⟩ s₁ second s₂ := ⟨8, done⟩
  have assigned : Assigned s₂.out (mac 8) (ip 20) 5004 :=
    ⟨7200, .inl (by rw [out]; exact mem_singleton.2 rfl)⟩
  have client : NotBlankFinder (ip 20) s₁.leases second.packet :=
    fun blank => absurd blank (by decide)
  exact ⟨s₁, s₂, step₁, kept, step₂, assigned,
    quarantine_respected ⟨config, []⟩ 1000 [] [] _ (.nil _) _ (by decide +kernel)
      (by decide +kernel) _ first s₁ step₁ kept [second] s₂ (.cons ⟨step₂, client⟩ (.nil s₂)) _ _
      assigned⟩

/-- Somebody uses .20, so it is kept until 4603; a second later it is offered. -/
theorem quarantine_broken : ∃ s₁ s₂, serve ⟨config, []⟩ 8 [answered (discover (mac 7) none)]
        (boot ⟨config, []⟩ 1000 []) = some s₁ ∧
      .reserved (ip 20) 4603 ∈ s₁.out ∧
      serve ⟨config, []⟩ 8 [discover blankChaddr none] s₁ = some s₂ ∧
      Assigned s₂.out blankChaddr (ip 20) 1004 := by
  obtain ⟨s₁, served, kept, sent⟩ : ∃ s₁, serve ⟨config, []⟩ 8
      [answered (discover (mac 7) none)]
      (boot ⟨config, []⟩ 1000 []) = some s₁ ∧ .reserved (ip 20) 4603 ∈ s₁.out ∧
      (serve ⟨config, []⟩ 8 [discover blankChaddr none] s₁).map (·.out) =
        some [.offer blankChaddr (ip 20) 3599 1004] :=
    ⟨_, rfl, by decide +kernel, by decide +kernel⟩
  obtain ⟨s₂, done, out⟩ := map_eq_some_iff.1 sent
  exact ⟨s₁, s₂, served, kept, done, 3599, .inl (by rw [out]; exact mem_singleton.2 rfl)⟩

end RouterApps.Udhcpd
