/-
# Udhcpd.Unique -- an address has one slot, a client has one slot

No two slots of the lease table hold the same address, and no two hold the same
hardware address, the blank values apart.  `add_lease` clears both before it
writes, and the other rewrites of a slot keep its address and keep or blank its
hardware address.  So the invariant holds of the table read from any lease file,
and after any messages.
-/
import RouterApps.Udhcpd.Turn

namespace RouterApps.Udhcpd

open CLib Theory Theory.Table

/-- No address and no hardware address is in two slots. -/
structure Unique (leases : List Lease) : Prop where
  yiaddr : Distinct Lease.yiaddr 0 leases
  chaddr : Distinct Lease.chaddr blankChaddr leases

theorem unique_replicate (n : Nat) : Unique (List.replicate n Lease.zero) :=
  ⟨distinct_replicate n rfl, distinct_replicate n rfl⟩

variable {leases : List Lease} {setup : Setup}

theorem Unique.clearLease (unique : Unique leases) (chaddr : Chaddr)
    (yiaddr : UInt32) : Unique (clearLease chaddr yiaddr leases) := by
  constructor
  · refine unique.yiaddr.map fun lease => ?_
    split
    · exact .inr rfl
    · exact .inl rfl
  · refine unique.chaddr.map fun lease => ?_
    split
    · exact .inr rfl
    · exact .inl rfl

theorem Unique.addLease (unique : Unique leases) (now : UInt32)
    (chaddr : Chaddr) (yiaddr lease : UInt32) (hostname : CharArray hostnameLen) :
    Unique (addLease now chaddr yiaddr lease hostname leases).2 := by
  have cleared := unique.clearLease chaddr yiaddr
  rcases addLease_cases now chaddr yiaddr lease hostname leases with ⟨i, old, h, -⟩ | ⟨h, -⟩
  · rw [h]
    constructor
    · refine cleared.yiaddr.set fun l member same => ?_
      by_contra used
      rcases mem_clearLease member with rfl | ⟨-, apart⟩
      · exact used same.symm
      · exact apart.2 used same
    · refine cleared.chaddr.set fun l member same => ?_
      by_contra used
      rcases mem_clearLease member with rfl | ⟨-, apart⟩
      · exact used same.symm
      · exact apart.1 used same
  · rw [h]
    exact cleared

theorem Unique.updateFirst (unique : Unique leases) (p : Lease → Bool)
    (f : Lease → Lease) (chaddr : ∀ l, (f l).chaddr = l.chaddr ∨ (f l).chaddr = blankChaddr)
    (yiaddr : ∀ l, (f l).yiaddr = l.yiaddr) : Unique (updateFirst p f leases) :=
  ⟨unique.yiaddr.updateFirst fun l => .inl (yiaddr l), unique.chaddr.updateFirst chaddr⟩

theorem initialLeases_unique (config : ServerConfig) (now : UInt32) (file : List UInt8) :
    Unique (initialLeases config now file) :=
  readLeasesLoop_invariant
    (fun chaddr yiaddr lease hostname _ _ unique => unique.addLease now chaddr yiaddr lease hostname)
    _ 0 (unique_replicate config.maxLeases)

theorem Probing.unique {b b' : Book} (probing : Probing setup b b') (unique : Unique b.leases) : Unique b'.leases :=
  probing.leases_invariant
    (fun now chaddr yiaddr lease hostname _ unique => unique.addLease now chaddr yiaddr lease hostname)
    unique

theorem Turn.unique {packet : Packet} {b b' : Book}
    (turn : Turn setup packet b b') (unique : Unique b.leases) : Unique b'.leases :=
  turn.leases_invariant
    (fun now chaddr yiaddr lease hostname _ unique => unique.addLease now chaddr yiaddr lease hostname)
    (fun p f _ chaddr yiaddr unique => unique.updateFirst p f chaddr yiaddr) unique

theorem Step.unique {s s' : Server} {m : Message} (step : Step setup s m s')
    (unique : Unique s.leases) : Unique s'.leases :=
  step.turn.unique unique

theorem Run.unique {s s' : Server} {ms : List Message}
    (run : Run (Step setup) s ms s') (unique : Unique s.leases) : Unique s'.leases :=
  run.invariant (fun _ _ _ unique step => step.unique unique) unique

open Sample

def Sample.conflict : List Message :=
  [answered (discover (mac 7) none), request (mac 7) (ip 21), request blankChaddr (ip 20), decline (mac 7)]

end RouterApps.Udhcpd
