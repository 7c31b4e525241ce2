/-
# Udhcpd.Turn -- what one message can do to the lease book

`Turn setup packet b b'` lists the ways the book can change while one message is
handled, each with the facts the code has established when it makes the change.
`handle_turn` says that the code does nothing else, so every property of runs is
proved by cases over `Turn` and the code is unfolded only here.

An address counts as free when its first slot was expired at some moment up to
now (`Lapsed`): `find_address` looks at the slot, then `arpping` waits, then the
address is used.
-/
import RouterApps.Theory.Run
import RouterApps.Udhcpd.Server

namespace RouterApps.Udhcpd

open CLib Theory Theory.Table List Option

/-! ## The turns -/

/-- `find_static_lease_by_yiaddr` finds the address. -/
def Setup.isReserved (setup : Setup) (yiaddr : UInt32) : Bool :=
  (findStaticLeaseByYiaddr yiaddr setup.static).isSome

/-- The reserved address of a client, 0 if it has none. -/
def Setup.reservation (setup : Setup) (chaddr : Chaddr) : UInt32 :=
  findStaticLeaseByChaddr chaddr setup.static

/-- The address has no slot, or its first slot was seen expired by now. -/
def Lapsed (b : Book) (yiaddr : UInt32) : Prop :=
  ∀ lease, findLeaseByYiaddr yiaddr b.leases = some lease → ∃ c ≤ b.clock, leaseExpired (UInt32.ofNat c) lease = true

/-- Time passes. -/
def Book.wait (b : Book) (d : Nat) : Book := { b with clock := b.clock + d }

inductive Probing (setup : Setup) : Book → Book → Prop
  | done (b : Book) : Probing setup b b
  | free {b b' : Book} (d : Nat) (rest : Probing setup (b.wait d) b') : Probing setup b b'
  | taken {b b' : Book} (d : Nat) (addr : UInt32)
      (allowed : setup.isReserved addr = true ∨ Lapsed b addr)
      (rest : Probing setup ((b.wait d).conflict setup.config addr) b') : Probing setup b b'

/-- `b` is the book when the message arrived, `b₁` when the search is over. -/
inductive OfferChoice (setup : Setup) (packet : Packet) (b b₁ : Book) : UInt32 → Prop
  | reserved (same : b₁ = b) (has : setup.reservation packet.chaddr ≠ 0) :
      OfferChoice setup packet b b₁ (setup.reservation packet.chaddr)
  | own (lease : Lease) (same : b₁ = b) (hasNone : setup.reservation packet.chaddr = 0)
      (found : findLeaseByChaddr packet.chaddr b.leases = some lease)
      (unreserved : setup.isReserved lease.yiaddr = false) :
      OfferChoice setup packet b b₁ lease.yiaddr
  | requested (req : UInt32) (same : b₁.leases = b.leases)
      (hasNone : setup.reservation packet.chaddr = 0)
      (absent : findLeaseByChaddr packet.chaddr b.leases = none)
      (asked : packet.requested = some req) (inPool : setup.config.inPool req = true)
      (allowed : setup.isReserved req = true ∨ Lapsed b₁ req) : OfferChoice setup packet b b₁ req
  | found (yiaddr : UInt32) (hasNone : setup.reservation packet.chaddr = 0)
      (unreserved : setup.isReserved yiaddr = false) (free : Lapsed b₁ yiaddr) :
      OfferChoice setup packet b b₁ yiaddr

/-- When a REQUEST is answered with an ACK of an address. -/
inductive AckChoice (setup : Setup) (packet : Packet) (b : Book) : UInt32 → Prop
  | record (lease : Lease) (found : findLeaseByChaddr packet.chaddr b.leases = some lease) :
      AckChoice setup packet b lease.yiaddr
  | noRecord (yiaddr : UInt32) (hasNone : setup.reservation packet.chaddr = 0)
      (absent : findLeaseByChaddr packet.chaddr b.leases = none)
      (untaken : findLeaseByYiaddr yiaddr b.leases = none)
      (unreserved : setup.isReserved yiaddr = false) : AckChoice setup packet b yiaddr

/-- What handling one message can do to the book. -/
inductive Turn (setup : Setup) (packet : Packet) : Book → Book → Prop
  | quiet (b : Book) : Turn setup packet b b
  | nak (b : Book) : Turn setup packet b (b.emit (.nak packet.chaddr))
  | inform (b : Book) : Turn setup packet b (b.emit (.inform packet.chaddr))
  | search {b b₁ : Book} (type : packet.type = some .discover) (probing : Probing setup b b₁) :
      Turn setup packet b b₁
  | withhold {b b₁ : Book} {yiaddr : UInt32} (type : packet.type = some .discover)
      (probing : Probing setup b b₁) (choice : OfferChoice setup packet b b₁ yiaddr)
      (real : yiaddr ≠ 0) :
      Turn setup packet b (b₁.addLease packet.chaddr yiaddr setup.config.offerTime noHostname).2
  | offer {b b₁ : Book} {yiaddr leaseTime : UInt32} (type : packet.type = some .discover)
      (probing : Probing setup b b₁) (choice : OfferChoice setup packet b b₁ yiaddr)
      (real : yiaddr ≠ 0) :
      Turn setup packet b ((b₁.addLease packet.chaddr yiaddr setup.config.offerTime noHostname).2.emit
        (.offer packet.chaddr yiaddr leaseTime b₁.clock))
  | ack {b : Book} {yiaddr leaseTime : UInt32} {hostname : CharArray hostnameLen}
      (type : packet.type = some .request) (choice : AckChoice setup packet b yiaddr) :
      Turn setup packet b ((b.emit (.ack packet.chaddr yiaddr leaseTime b.clock)).addLease
        packet.chaddr yiaddr leaseTime hostname).2
  | drop {b : Book} {lease : Lease} (yiaddr : UInt32) (type : packet.type = some .request)
      (absent : findLeaseByChaddr packet.chaddr b.leases = none)
      (found : findLeaseByYiaddr yiaddr b.leases = some lease)
      (expired : leaseExpired b.time lease = true) :
      Turn setup packet b (b.update (hasYiaddr yiaddr) fun l => { l with chaddr := blankChaddr })
  | decline {b : Book} {lease : Lease} (type : packet.type = some .decline)
      (found : findLeaseByChaddr packet.chaddr b.leases = some lease) :
      Turn setup packet b
        ((b.emit (.reserved lease.yiaddr (b.time + setup.config.declineTime))).update (hasChaddr packet.chaddr)
          fun l => { l with chaddr := blankChaddr, expires := b.time + setup.config.declineTime })
  | release {b : Book} (type : packet.type = some .release) :
      Turn setup packet b (b.update (hasChaddr packet.chaddr) fun l => { l with expires := b.time })

/-! ## The code does nothing else -/

variable {setup : Setup} {yiaddr : UInt32} {packet : Packet}

section

variable {env : Env}

theorem Probing.trans {b b' b'' : Book} (first : Probing setup b b')
    (second : Probing setup b' b'') : Probing setup b b'' := by
  induction first with
  | done b => exact second
  | free d rest ih => exact .free d (ih second)
  | taken d addr allowed rest ih => exact .taken d addr allowed (ih second)

variable {s s' : Server} {fuel : Nat}

theorem Lapsed.wait {b : Book} (lapsed : Lapsed b yiaddr) (d : Nat) : Lapsed (b.wait d) yiaddr := by
  intro lease found
  obtain ⟨c, past, expired⟩ := lapsed lease found
  exact ⟨c, past.trans (Nat.le_add_right _ _), expired⟩

variable {checkExpired : Bool}

theorem lapsed_of_assignable {addr : UInt32} (free : assignable checkExpired addr s = true) : Lapsed s.toBook addr := by
  intro lease found
  unfold assignable at free
  rw [found] at free
  simp only [Bool.and_eq_true] at free
  exact ⟨s.clock, le_rfl, free.2⟩

theorem checkIp_cases (setup : Setup) (addr : UInt32) (s : Server) :
    ∃ d s₁, (checkIp setup addr s = (false, s₁) ∧ s₁.toBook = s.toBook.wait d) ∨
      (checkIp setup addr s = (true, s₁) ∧ s₁.toBook = (s.toBook.wait d).conflict setup.config addr) := by
  unfold checkIp Server.arpping
  cases s.probes with
  | nil => exact ⟨0, s, .inl ⟨rfl, rfl⟩⟩
  | cons probe probes =>
    cases used : probe.used with
    | false => exact ⟨probe.elapsed, _, .inl ⟨by simp [used]; rfl, rfl⟩⟩
    | true => exact ⟨probe.elapsed, _, .inr ⟨by simp [used]; rfl, rfl⟩⟩

theorem findAddressFrom_spec (fuel : Nat) (addr : UInt32) (s : Server)
        (found : findAddressFrom setup env checkExpired fuel addr s = some (yiaddr, s')) :
    Probing setup s.toBook s'.toBook ∧ (yiaddr = 0 ∨ setup.isReserved yiaddr = false ∧ Lapsed s'.toBook yiaddr) := by
  induction fuel generalizing addr s with
  | zero => cases found
  | succ fuel ih =>
    simp only [findAddressFrom] at found
    split at found
    · split at found
      · exact ih _ _ found
      split at found
      · exact ih _ _ found
      split at found
      · exact ih _ _ found
      split at found
      · exact ih _ _ found
      rename_i unreserved
      have unreserved : setup.isReserved (htonl addr) = false := by
        simpa [Setup.isReserved] using unreserved
      split at found
      · rename_i free
        have lapsed := lapsed_of_assignable free
        obtain ⟨d, s₁, ⟨probed, book⟩ | ⟨probed, book⟩⟩ := checkIp_cases setup (htonl addr) s
        · rw [probed] at found
          cases found
          rw [book]
          exact ⟨.free d (.done _), .inr ⟨unreserved, lapsed.wait d⟩⟩
        · rw [probed] at found
          obtain ⟨probing, choice⟩ := ih _ _ found
          exact ⟨.taken d _ (.inr lapsed) (book ▸ probing), choice⟩
      · exact ih _ _ found
    · cases found
      exact ⟨.done _, .inl rfl⟩

theorem findAnyAddress_spec (found : findAnyAddress setup env fuel s = some (yiaddr, s')) :
    Probing setup s.toBook s'.toBook ∧ (yiaddr = 0 ∨ setup.isReserved yiaddr = false ∧ Lapsed s'.toBook yiaddr) := by
  unfold findAnyAddress at found
  simp only [bind_eq_bind, bind_eq_some_iff, Prod.exists] at found
  obtain ⟨y₁, s₁, first, found⟩ := found
  obtain ⟨probing, choice⟩ := findAddressFrom_spec _ _ _ first
  split at found
  · obtain ⟨probing', choice'⟩ := findAddressFrom_spec _ _ _ found
    exact ⟨probing.trans probing', choice'⟩
  · cases found
    exact ⟨probing, choice⟩

theorem offerAddress_spec {s₁ : Server} {leaseTime : UInt32}
    (settled : offerAddress setup env fuel packet s = some (yiaddr, leaseTime, s₁)) : Probing setup s.toBook s₁.toBook ∧
      (yiaddr = 0 ∨ OfferChoice setup packet s.toBook s₁.toBook yiaddr) := by
  unfold offerAddress at settled
  simp only [] at settled
  split at settled
  · rename_i has
    cases settled
    exact ⟨.done _, .inr (.reserved rfl has)⟩
  rename_i hasNone
  have hasNone : setup.reservation packet.chaddr = 0 := by
    simpa [Setup.reservation] using hasNone
  split at settled
  · rename_i lease own
    split at settled
    · simp only [bind_eq_bind, bind_eq_some_iff, Prod.exists] at settled
      obtain ⟨y, s₂, searched, settled⟩ := settled
      cases settled
      obtain ⟨probing, choice⟩ := findAnyAddress_spec searched
      exact ⟨probing, choice.imp_right fun h => .found _ hasNone h.1 h.2⟩
    · rename_i unreserved
      cases settled
      exact ⟨.done _, .inr (.own lease rfl hasNone own (by simpa [Setup.isReserved] using unreserved))⟩
  · rename_i absent
    split at settled
    · rename_i req asked
      obtain ⟨asked, ok⟩ := filter_eq_some_iff.1 asked
      simp only [requestable, Bool.and_eq_true, Bool.or_eq_true] at ok
      have allowed : setup.isReserved req = true ∨ Lapsed s.toBook req := ok.2.imp_right lapsed_of_assignable
      obtain ⟨d, s₂, ⟨probed, book⟩ | ⟨probed, book⟩⟩ := checkIp_cases setup req s
      · rw [probed] at settled
        cases settled
        rw [book]
        exact ⟨.free d (.done _), .inr (.requested _ rfl hasNone absent asked ok.1 (allowed.imp_right (·.wait d)))⟩
      · rw [probed] at settled
        simp only [bind_eq_bind, bind_eq_some_iff, Prod.exists] at settled
        obtain ⟨y₁, s₃, first, settled⟩ := settled
        obtain ⟨probing, -⟩ := findAddressFrom_spec _ _ _ first
        have probing := Probing.taken d req allowed (book ▸ probing)
        split at settled
        · simp only [bind_eq_some_iff, Prod.exists] at settled
          obtain ⟨y₂, s₄, second, settled⟩ := settled
          cases settled
          obtain ⟨probing', choice⟩ := findAddressFrom_spec _ _ _ second
          exact ⟨probing.trans probing', choice.imp_right fun h => .found _ hasNone h.1 h.2⟩
        · cases settled
          exact ⟨probing, .inl rfl⟩
    · simp only [bind_eq_bind, bind_eq_some_iff, Prod.exists] at settled
      obtain ⟨y, s₂, searched, settled⟩ := settled
      cases settled
      obtain ⟨probing, choice⟩ := findAnyAddress_spec searched
      exact ⟨probing, choice.imp_right fun h => .found _ hasNone h.1 h.2⟩

theorem sendOffer_turn (type : packet.type = some .discover) (sent : sendOffer setup env fuel packet s = some s') :
    Turn setup packet s.toBook s'.toBook := by
  unfold sendOffer at sent
  simp only [bind_eq_bind, bind_eq_some_iff, Prod.exists] at sent
  obtain ⟨yiaddr, leaseTime, s₁, settled, sent⟩ := sent
  obtain ⟨probing, choice⟩ := offerAddress_spec settled
  split at sent
  · cases sent
    exact .search type probing
  rename_i real
  have choice := choice.resolve_left real
  have withheld := Turn.withhold type probing choice real
  split at sent
  · rename_i s₂ added
    have book : s₂.toBook = _ := congrArg (·.2.toBook) added.symm
    cases sent
    rw [book]
    exact withheld
  · rename_i s₂ added
    have book : s₂.toBook = _ := congrArg (·.2.toBook) added.symm
    split at sent
    · cases sent
      rw [book]
      exact withheld
    · cases sent
      unfold Server.send
      split
      · show Turn setup packet s.toBook (s₂.toBook.emit _)
        rw [book]
        exact .offer type probing choice real
      · rw [book]
        exact withheld

theorem sendACK_turn (type : packet.type = some .request) (choice : AckChoice setup packet s.toBook yiaddr) :
    Turn setup packet s.toBook (sendACK setup env packet yiaddr s).toBook := by
  unfold sendACK
  split
  · exact .ack type choice
  · exact .quiet _

theorem sendNAK_turn (s : Server) : Turn setup packet s.toBook (sendNAK env packet s).toBook := by
  unfold sendNAK Server.send
  split
  · exact .nak _
  · exact .quiet _

theorem requestRecord_turn {lease : Lease} (type : packet.type = some .request)
    (found : findLeaseByChaddr packet.chaddr s.leases = some lease) :
    Turn setup packet s.toBook (requestRecord setup env packet lease s).toBook := by
  have acked : Turn setup packet s.toBook (sendACK setup env packet lease.yiaddr s).toBook :=
    sendACK_turn type (.record lease found)
  unfold requestRecord
  split
  · exact sendNAK_turn s
  split
  · split
    · exact acked
    · exact .quiet _
  · split <;> split <;> first | exact acked | exact sendNAK_turn s

theorem isReserved_of_reservation {chaddr : Chaddr} (has : setup.reservation chaddr ≠ 0) :
    setup.isReserved (setup.reservation chaddr) = true := by
  unfold Setup.reservation findStaticLeaseByChaddr at has ⊢
  split at has
  · rename_i lease found
    have member := mem_of_find?_eq_some found
    simp only [Setup.isReserved, findStaticLeaseByYiaddr, find?_isSome]
    exact ⟨lease, member, by simp⟩
  · exact absurd rfl has

theorem requestNoRecord_turn (type : packet.type = some .request)
    (absent : findLeaseByChaddr packet.chaddr s.leases = none) :
    Turn setup packet s.toBook (requestNoRecord setup env packet s).toBook := by
  unfold requestNoRecord
  split
  · exact .quiet _
  split
  · exact sendNAK_turn s
  · rename_i requested asked
    simp only []
    split
    · exact .quiet _
    rename_i agrees
    split
    · rename_i lease found
      split
      · rename_i expired
        exact .drop requested type absent found expired
      · exact sendNAK_turn s
    · rename_i untaken
      split
      · exact sendNAK_turn s
      split
      · exact sendNAK_turn s
      · rename_i unreserved
        have unreserved : setup.isReserved requested = false := by
          simpa [Setup.isReserved] using unreserved
        -- a client with this very reservation would have been refused above
        have hasNone : setup.reservation packet.chaddr = 0 := by
          by_contra has
          have same : setup.reservation packet.chaddr = requested := by
            by_contra other
            exact agrees ⟨has, other⟩
          have reserved := isReserved_of_reservation has
          rw [same, unreserved] at reserved
          cases reserved
        exact sendACK_turn type (.noRecord requested hasNone absent untaken unreserved)

/-- **The code refines `Turn`.** -/
theorem handle_turn (done : handle setup fuel env packet s = some s') :
    Turn setup packet (s.receive env).toBook s'.toBook := by
  unfold handle at done
  split at done
  · cases done
    exact .quiet _
  split at done
  · cases done
    exact .quiet _
  · rename_i type
    obtain ⟨s₁, sent, rfl⟩ := map_eq_some_iff.1 done
    show Turn setup packet _ s₁.toBook
    exact sendOffer_turn type sent
  · rename_i type
    cases done
    unfold handleRequest
    split
    · rename_i lease found
      exact requestRecord_turn type found
    · rename_i absent
      exact requestNoRecord_turn type absent
  · rename_i type
    cases done
    unfold handleDecline
    split
    · rename_i lease found
      exact .decline type found
    · exact .quiet _
  · rename_i type
    cases done
    exact .release type
  · cases done
    unfold Server.send
    split
    · exact .inform _
    · exact .quiet _
  · cases done
    exact .quiet _

end

/-! ## Runs -/

/-- One turn of the message loop. -/
def Step (setup : Setup) (s : Server) (m : Message) (s' : Server) : Prop :=
  ∃ fuel, handle setup fuel m.env m.packet s = some s'

/-- The book when a message is taken up, `d` seconds after the last one. -/
def Book.next (b : Book) (d : Nat) : Book := { b with clock := b.clock + d, out := [] }

theorem Step.turn {setup : Setup} {s s' : Server} {m : Message} (step : Step setup s m s') :
    Turn setup m.packet (s.toBook.next m.env.elapsed) s'.toBook := by
  obtain ⟨fuel, done⟩ := step
  exact handle_turn done

theorem serve_run {setup : Setup} {fuel : Nat} {ms : List Message} {s s' : Server}
    (done : serve setup fuel ms s = some s') : Run (Step setup) s ms s' := by
  induction ms generalizing s with
  | nil =>
    cases done
    exact .nil _
  | cons m ms ih =>
    simp only [serve, bind_eq_bind, bind_eq_some_iff] at done
    obtain ⟨s₁, first, rest⟩ := done
    exact .cons ⟨fuel, first⟩ (ih rest)

/-! ## What a turn sends -/

/-- `yiaddr` is offered to `chaddr`, or acknowledged, at time `clock`. -/
def Assigned (out : List Event) (chaddr : Chaddr) (yiaddr : UInt32) (clock : Nat) : Prop :=
  ∃ leaseTime, .offer chaddr yiaddr leaseTime clock ∈ out ∨ .ack chaddr yiaddr leaseTime clock ∈ out

section

variable {b b' : Book} {chaddr : Chaddr}
  {clock : Nat}

@[simp] theorem not_assigned_nil : ¬ Assigned [] chaddr yiaddr clock := by
  rintro ⟨leaseTime, h | h⟩ <;> cases h

theorem Book.conflict_out (b : Book) (config : ServerConfig) (addr : UInt32) : (b.conflict config addr).out = b.out ∨
      (b.conflict config addr).out = b.out ++ [.reserved addr (b.time + config.conflictTime)] := by
  unfold Book.conflict
  simp only []
  split
  · exact .inr rfl
  · exact .inl rfl

theorem Probing.assigned (probing : Probing setup b b') :
    Assigned b'.out chaddr yiaddr clock ↔ Assigned b.out chaddr yiaddr clock := by
  induction probing with
  | done b => rfl
  | free d rest ih => exact ih
  | @taken b b' d addr allowed rest ih =>
    rw [ih]
    rcases Book.conflict_out (b.wait d) setup.config addr with same | more
    · rw [same]
      rfl
    · rw [more]
      simp [Assigned, Book.wait]

theorem Probing.not_assigned (probing : Probing setup b b') (fresh : b.out = []) :
    ¬ Assigned b'.out chaddr yiaddr clock := by
  rw [probing.assigned, fresh]
  exact not_assigned_nil

/-- An OFFER that `OfferChoice` allows or an ACK that `AckChoice` allows, to the sender of the
message. -/
theorem Turn.assigned (turn : Turn setup packet b b') (fresh : b.out = [])
    (assigned : Assigned b'.out chaddr yiaddr clock) : packet.chaddr = chaddr ∧
      ((∃ b₁, packet.type = some .discover ∧ Probing setup b b₁ ∧
          OfferChoice setup packet b b₁ yiaddr ∧ yiaddr ≠ 0 ∧ clock = b₁.clock) ∨
        packet.type = some .request ∧ AckChoice setup packet b yiaddr ∧ clock = b.clock) := by
  cases turn with
  | quiet | drop | release =>
    have before : Assigned b.out chaddr yiaddr clock := assigned
    rw [fresh] at before
    exact absurd before not_assigned_nil
  | nak | inform => simp [Assigned, Book.emit, fresh] at assigned
  | search type probing | withhold type probing choice real => exact (probing.not_assigned fresh assigned).elim
  | @offer b₁ y leaseTime type probing choice real =>
    obtain ⟨lt, h | h⟩ := assigned
    · rcases mem_append.1 h with h | h
      · exact absurd ⟨lt, .inl h⟩ (probing.not_assigned fresh)
      · cases mem_singleton.1 h
        exact ⟨rfl, .inl ⟨b₁, type, probing, choice, real, rfl⟩⟩
    · rcases mem_append.1 h with h | h
      · exact absurd ⟨lt, .inr h⟩ (probing.not_assigned fresh)
      · cases mem_singleton.1 h
  | @ack y leaseTime hostname type choice =>
    simp only [Assigned, Book.addLease, Book.emit, fresh, nil_append, mem_singleton, reduceCtorEq, false_or] at assigned
    obtain ⟨-, rfl, rfl, -, rfl⟩ := assigned
    exact ⟨rfl, .inr ⟨type, choice, rfl⟩⟩
  | decline => simp [Assigned, Book.update, Book.emit, fresh] at assigned

end

/-! ## Properties of the table -/

section

variable {I : List Lease → Prop}

theorem Probing.leases_invariant (add : ∀ now chaddr yiaddr lease hostname leases, I leases →
      I (addLease now chaddr yiaddr lease hostname leases).2)
    {b b' : Book} (probing : Probing setup b b') (holds : I b.leases) : I b'.leases := by
  induction probing with
  | done b => exact holds
  | free d rest ih => exact ih holds
  | taken d addr allowed rest ih =>
    refine ih ?_
    unfold Book.conflict
    simp only []
    split <;> exact add _ _ _ _ _ _ holds

/-- `add_lease` preserves the property, and so does every change of a slot that keeps its address
and keeps or blanks its hardware address. -/
theorem Turn.leases_invariant (add : ∀ now chaddr yiaddr lease hostname leases, I leases →
      I (addLease now chaddr yiaddr lease hostname leases).2)
    (update : ∀ p f leases, (∀ l, (f l).chaddr = l.chaddr ∨ (f l).chaddr = blankChaddr) →
      (∀ l, (f l).yiaddr = l.yiaddr) → I leases → I (updateFirst p f leases))
    {packet : Packet} {b b' : Book} (turn : Turn setup packet b b') (holds : I b.leases) : I b'.leases := by
  cases turn with
  | quiet | nak | inform => exact holds
  | search type probing => exact probing.leases_invariant add holds
  | withhold type probing choice real =>
    exact add _ _ _ _ _ _ (probing.leases_invariant add holds)
  | offer type probing choice real => exact add _ _ _ _ _ _ (probing.leases_invariant add holds)
  | ack type choice => exact add _ _ _ _ _ _ holds
  | drop yiaddr type absent found expired =>
    exact update _ _ _ (fun _ => .inr rfl) (fun _ => rfl) holds
  | decline type found => exact update _ _ _ (fun _ => .inr rfl) (fun _ => rfl) holds
  | release type => exact update _ _ _ (fun _ => .inl rfl) (fun _ => rfl) holds

end

end RouterApps.Udhcpd
