/-
# Conntrack.Conserved -- each counter is the number of its connections

Allocations, expectations and frees keep every counter equal to the number of live connections whose
tuples map to it.  Destination NAT changes the reply tuple, and `check_conntrack_ratio_in_dnat` moves
the charge by other tests than those of `get_conntrack_count_per_ip_index`.  They differ, for example,
if the connection was made to the LAN address of the router (`dnat_of_local_leaks`).
-/
import RouterApps.Conntrack.Accounting

namespace RouterApps.Conntrack

open Inet Theory Theory.Tally List Option Tracker

variable {limits : Limits} {lan : Lan} {t t' : Tracker} {ct : Conn} {j : Nat} {minIp : UInt32}

/-! ## What is claimed -/

/-- The counters are numbers of live connections, and no live connection has a counter at 0, where a
decrement would be left out. -/
structure Conserved (lan : Lan) (t : Tracker) : Prop where
  perIp : ∀ i, t.countPerIp i = t.live.countP fun ct => ct.index lan = i
  guard : ∀ ct ∈ t.live, t.countPerIp (ct.index lan) ≠ 0
  tcp : t.tcpConnCount = t.live.countP fun ct => ct.original.protonum = ipprotoTcp
  udp : t.udpConnCount = t.live.countP fun ct => ct.original.protonum = ipprotoUdp
  icmp : t.icmpConnCount = t.live.countP fun ct => ct.original.protonum = ipprotoIcmp

/-- An address of the LAN with a host number of its own. -/
def OrdinaryHost (lan : Lan) (ipaddr : UInt32) : Prop :=
  checkInternalSubnet lan ipaddr = true ∧ ipidxOf lan ipaddr ≠ lancpuIpidx ∧ ipidxOf lan ipaddr ≠ wancpuIpidx

instance (lan : Lan) (ipaddr : UInt32) : Decidable (OrdinaryHost lan ipaddr) :=
  inferInstanceAs (Decidable (_ ∧ _ ∧ _))

/-- The index of a connection from outside whose replies come from this address. -/
def outsideIndex (lan : Lan) (ipaddr : UInt32) : Ipidx :=
  if checkInternalSubnet lan ipaddr then ipidxOf lan ipaddr else wancpuIpidx

/-- The tests of the NAT check and those of the index lead to the same charge. -/
def Conn.DnatAgrees (lan : Lan) (ct : Conn) (minIp : UInt32) : Prop :=
  checkInternalSubnet lan ct.original.src = true ∨
    (checkLocalIp lan ct.original.dst = true ∧ ¬OrdinaryHost lan minIp) ∨
    (checkLocalIp lan ct.original.dst = false ∧ (OrdinaryHost lan minIp ∨ ct.index lan = outsideIndex lan minIp))

instance (lan : Lan) (ct : Conn) (minIp : UInt32) : Decidable (ct.DnatAgrees lan minIp) :=
  inferInstanceAs (Decidable (_ ∨ _ ∧ _ ∨ _ ∧ (_ ∨ _)))

/-! ## Indices -/

theorem index_eq (lan : Lan) (ct : Conn) : ct.index lan =
    if checkLocalIp lan ct.original.dst then lancpuIpidx
    else if checkInternalSubnet lan ct.original.src then ipidxOf lan ct.original.src
    else outsideIndex lan ct.reply.src := rfl

theorem dnat_index (lan : Lan) (ct : Conn) (minIp : UInt32) : (ct.dnat minIp).index lan =
    if checkLocalIp lan ct.original.dst then lancpuIpidx
    else if checkInternalSubnet lan ct.original.src then ipidxOf lan ct.original.src
    else outsideIndex lan minIp := rfl

theorem outsideIndex_of_ordinary (ordinary : OrdinaryHost lan minIp) : outsideIndex lan minIp = ipidxOf lan minIp :=
  if_pos ordinary.1

/-! ## Destination NAT -/

/-- An ordinary host is charged for a connection from outside, and otherwise nothing is charged. -/
theorem dnat_accepted (accepted : checkConntrackRatioInDnat limits ct minIp t = some t') :
    (OrdinaryHost limits.lan minIp ∧ checkInternalSubnet limits.lan ct.original.src = false ∧
      (limits.unlimited = true ∨ limits.belowRate (t.countPerIp (ipidxOf limits.lan minIp)) = true) ∧
      t' = { t with countPerIp := lower (raise t.countPerIp (ipidxOf limits.lan minIp)) (ct.index limits.lan) }) ∨
    ((¬OrdinaryHost limits.lan minIp ∨ checkInternalSubnet limits.lan ct.original.src = true) ∧ t' = t) := by
  unfold checkConntrackRatioInDnat at accepted
  split at accepted
  · rename_i outside
    obtain rfl := some.inj accepted
    exact .inr ⟨.inl fun ordinary => by simp [ordinary.1] at outside, rfl⟩
  · rename_i inside
    split at accepted
    · rename_i internal
      obtain rfl := some.inj accepted
      exact .inr ⟨.inr internal, rfl⟩
    · rename_i external
      dsimp only at accepted
      split at accepted
      · rename_i special
        obtain rfl := some.inj accepted
        exact .inr ⟨.inl fun ordinary => special.elim ordinary.2.1 ordinary.2.2, rfl⟩
      · rename_i ordinary
        split at accepted
        · rename_i below
          obtain rfl := some.inj accepted
          refine .inl ⟨⟨by simpa using inside, ?_⟩, by simpa using external, below, rfl⟩
          exact not_or.1 ordinary
        · cases accepted

/-- **One accepted DNAT** keeps the counters right exactly if the two groups of tests agree. -/
theorem dnat_tallied_iff (tallied : Tallied (Conn.index limits.lan) t.countPerIp t.live)
    (found : t.live[j]? = some ct) (accepted : checkConntrackRatioInDnat limits ct minIp t = some t') :
    Tallied (Conn.index limits.lan) t'.countPerIp (t.live.set j (ct.dnat minIp)) ↔ ct.DnatAgrees limits.lan minIp := by
  rcases dnat_accepted accepted with ⟨ordinary, external, -, rfl⟩ | ⟨still, rfl⟩
  · rw [tallied.move_iff found, dnat_index]
    unfold Conn.DnatAgrees
    cases localDst : checkLocalIp limits.lan ct.original.dst with
    | true => simpa [external, ordinary] using ordinary.2.1.symm
    | false => simp [external, ordinary, outsideIndex_of_ordinary ordinary]
  · rw [tallied.unmoved_iff found, dnat_index, index_eq]
    unfold Conn.DnatAgrees
    cases internal : checkInternalSubnet limits.lan ct.original.src with
    | true => simp
    | false =>
      have special := still.resolve_right (by simp [internal])
      cases localDst : checkLocalIp limits.lan ct.original.dst with
      | true => simp [special]
      | false => simp [special, index_eq, internal, localDst, eq_comm]

/-! ## The other steps -/

theorem alloc_cases (limits : Limits) (original reply : Tuple) (dropped memory : Bool) (t : Tracker) :
    (nfConntrackAlloc limits original reply dropped memory t).getD t = t ∨
      ((checkConntrackRatioPerIp limits t original).1 = true ∧
        (nfConntrackAlloc limits original reply dropped memory t).getD t =
          { { t with count := t.count + 1 }.countProtocol original.protonum with
            live := t.live ++ [⟨original, reply⟩]
            countPerIp := raise t.countPerIp (Conn.index limits.lan ⟨original, reply⟩) }) := by
  unfold nfConntrackAlloc
  dsimp only
  split
  · exact .inl rfl
  · split
    · exact .inl rfl
    · rename_i passed
      split
      · exact .inl rfl
      · split
        · exact .inl rfl
        · refine .inr ⟨by simpa using passed, ?_⟩
          unfold countProtocol
          split
          · rfl
          · split
            · rfl
            · split <;> rfl

variable (protonum : UInt8)

theorem uncountProtocol_keeps (t : Tracker) :
    (t.uncountProtocol protonum).live = t.live ∧ (t.uncountProtocol protonum).countPerIp = t.countPerIp := by
  unfold uncountProtocol
  split
  · exact ⟨rfl, rfl⟩
  · split
    · exact ⟨rfl, rfl⟩
    · split <;> exact ⟨rfl, rfl⟩

/-! ## The protocol counters -/

/-- The protocol counters are numbers of live connections. -/
structure ProtocolsCounted (t : Tracker) : Prop where
  tcp : t.tcpConnCount = t.live.countP fun ct => ct.original.protonum = ipprotoTcp
  udp : t.udpConnCount = t.live.countP fun ct => ct.original.protonum = ipprotoUdp
  icmp : t.icmpConnCount = t.live.countP fun ct => ct.original.protonum = ipprotoIcmp

theorem protocols_apart : ipprotoTcp ≠ ipprotoIcmp ∧ ipprotoTcp ≠ ipprotoUdp ∧ ipprotoIcmp ≠ ipprotoUdp := by decide

theorem countProtocol_counts (t : Tracker) :
    (t.countProtocol protonum).tcpConnCount = t.tcpConnCount + (if protonum = ipprotoTcp then 1 else 0) ∧
    (t.countProtocol protonum).udpConnCount = t.udpConnCount + (if protonum = ipprotoUdp then 1 else 0) ∧
    (t.countProtocol protonum).icmpConnCount = t.icmpConnCount + (if protonum = ipprotoIcmp then 1 else 0) := by
  obtain ⟨tcpIcmp, tcpUdp, icmpUdp⟩ := protocols_apart
  unfold countProtocol
  split
  · subst protonum
    simp [tcpIcmp, tcpUdp]
  · split
    · subst protonum
      simp [icmpUdp]
    · split
      · simp_all
      · simp

theorem uncountProtocol_counts (t : Tracker) :
    (t.uncountProtocol protonum).tcpConnCount = t.tcpConnCount - (if protonum = ipprotoTcp then 1 else 0) ∧
    (t.uncountProtocol protonum).udpConnCount = t.udpConnCount - (if protonum = ipprotoUdp then 1 else 0) ∧
    (t.uncountProtocol protonum).icmpConnCount = t.icmpConnCount - (if protonum = ipprotoIcmp then 1 else 0) := by
  obtain ⟨tcpIcmp, tcpUdp, icmpUdp⟩ := protocols_apart
  unfold uncountProtocol
  by_cases isTcp : protonum = ipprotoTcp
  · subst isTcp
    by_cases zero : t.tcpConnCount = 0 <;> simp [tcpIcmp, tcpUdp, zero]
  · by_cases isUdp : protonum = ipprotoUdp
    · subst isUdp
      by_cases zero : t.udpConnCount = 0 <;> simp [tcpUdp.symm, icmpUdp.symm, zero]
    · by_cases isIcmp : protonum = ipprotoIcmp
      · subst isIcmp
        by_cases zero : t.icmpConnCount = 0 <;> simp [tcpIcmp.symm, icmpUdp, zero]
      · simp [isTcp, isUdp, isIcmp]

section

variable (counted : ProtocolsCounted t)

include counted

theorem ProtocolsCounted.alloc (ct : Conn) (countPerIp : Ipidx → Nat) (count : Nat) : ProtocolsCounted
      { { t with count := count }.countProtocol ct.original.protonum with
        live := t.live ++ [ct]
        countPerIp := countPerIp } := by
  obtain ⟨tcp, udp, icmp⟩ := countProtocol_counts ct.original.protonum { t with count := count }
  have added : ∀ protonum, (t.live ++ [ct]).countP (fun ct => ct.original.protonum = protonum) =
      t.live.countP (fun ct => ct.original.protonum = protonum) +
        (if ct.original.protonum = protonum then 1 else 0) := by
    intro protonum
    simp
  constructor
  · rw [tcp, added, counted.tcp]
  · rw [udp, added, counted.udp]
  · rw [icmp, added, counted.icmp]

theorem ProtocolsCounted.free (found : t.live[j]? = some ct) (countPerIp : Ipidx → Nat) (count : Nat) :
    ProtocolsCounted
      { { t with countPerIp := countPerIp }.uncountProtocol ct.original.protonum with
        live := t.live.eraseIdx j
        count := count } := by
  obtain ⟨tcp, udp, icmp⟩ := uncountProtocol_counts ct.original.protonum { t with countPerIp := countPerIp }
  have removed : ∀ protonum, t.live.countP (fun ct => ct.original.protonum = protonum) -
      (if ct.original.protonum = protonum then 1 else 0) =
      (t.live.eraseIdx j).countP fun ct => ct.original.protonum = protonum := by
    intro protonum
    have less := countP_eraseIdx (p := fun ct => ct.original.protonum = protonum) found
    simp only [decide_eq_true_eq] at less
    omega
  constructor
  · rw [tcp, ← removed, counted.tcp]
  · rw [udp, ← removed, counted.udp]
  · rw [icmp, ← removed, counted.icmp]

theorem ProtocolsCounted.set (found : t.live[j]? = some ct) (ct' : Conn)
    (same : ct'.original = ct.original) (countPerIp : Ipidx → Nat) :
    ProtocolsCounted { t with live := t.live.set j ct', countPerIp := countPerIp } := by
  have kept : ∀ protonum, (t.live.set j ct').countP (fun ct => ct.original.protonum = protonum) =
      t.live.countP fun ct => ct.original.protonum = protonum := by
    intro protonum
    have counted := countP_set_add (p := fun ct : Conn => ct.original.protonum = protonum) (b := ct') found
    rw [same] at counted
    omega
  exact ⟨counted.tcp.trans (kept _).symm, counted.udp.trans (kept _).symm, counted.icmp.trans (kept _).symm⟩

end

/-! ## Every run -/

theorem conserved_of_tallied (tallied : Tallied (Conn.index lan) t.countPerIp t.live)
    (protocols : ProtocolsCounted t) : Conserved lan t where
  perIp := tallied
  guard := fun _ member => (tallied.pos member).ne'
  tcp := protocols.tcp
  udp := protocols.udp
  icmp := protocols.icmp

theorem Conserved.protocols (conserved : Conserved lan t) : ProtocolsCounted t :=
  ⟨conserved.tcp, conserved.udp, conserved.icmp⟩

theorem conserved_empty : Conserved lan empty :=
  conserved_of_tallied tallied_nil ⟨rfl, rfl, rfl⟩

section

variable (conserved : Conserved limits.lan t)

include conserved

theorem Conserved.alloc (original reply : Tuple) (dropped memory : Bool) :
    Conserved limits.lan ((nfConntrackAlloc limits original reply dropped memory t).getD t) := by
  rcases alloc_cases limits original reply dropped memory t with same | ⟨-, new⟩
  · rw [same]
    exact conserved
  · rw [new]
    exact conserved_of_tallied (Tallied.add conserved.perIp ⟨original, reply⟩)
      (conserved.protocols.alloc ⟨original, reply⟩ _ _)

theorem Conserved.free (freed : nfConntrackFree limits j t = some t') : Conserved limits.lan t' := by
  obtain ⟨ct, found, rfl⟩ := map_eq_some_iff.1 freed
  obtain ⟨live, counts⟩ := uncountProtocol_keeps ct.original.protonum (t.decrease limits.lan ct)
  dsimp only
  rw [live]
  refine conserved_of_tallied ?_ (conserved.protocols.free found _ _)
  rw [counts]
  exact Tallied.remove conserved.perIp found

theorem Conserved.expect {redirected : Option Tuple}
    (expected : expectConntrack limits j redirected t = some t') : Conserved limits.lan t' := by
  obtain ⟨ct, found, rfl⟩ := map_eq_some_iff.1 expected
  exact conserved_of_tallied (Tallied.refile conserved.perIp found)
    (conserved.protocols.set found { ct with reply := redirected.getD ct.reply } rfl _)

/-- A DNAT that is accepted keeps the counters right exactly if the tests agree. -/
theorem Conserved.dnat_iff (found : t.live[j]? = some ct) (moved : iptDnatTarget limits j minIp t = some t') :
    Conserved limits.lan t' ↔
      ((checkConntrackRatioInDnat limits ct minIp t).isSome → ct.DnatAgrees limits.lan minIp) := by
  simp only [iptDnatTarget, found, map_some, some.injEq] at moved
  subst moved
  cases accepted : checkConntrackRatioInDnat limits ct minIp t with
  | none => simpa using conserved
  | some u =>
    have rest : u = { t with countPerIp := u.countPerIp } := by
      rcases dnat_accepted accepted with ⟨-, -, -, rfl⟩ | ⟨-, rfl⟩ <;> rfl
    have tallied := dnat_tallied_iff conserved.perIp found accepted
    have protocols := conserved.protocols.set found (ct.dnat minIp) rfl u.countPerIp
    simp only [isSome_some, forall_const]
    rw [← tallied, rest]
    exact ⟨fun after => after.perIp, fun after => conserved_of_tallied after protocols⟩

end

/-- **Conservation.**  Every counter is right in every state of a run exactly if for every accepted
DNAT the tests of the check and of the index agree. -/
theorem conserved_iff (limits : Limits) (events : List Event) (final : Tracker)
    (ran : replay (Tracker.step limits) events Tracker.empty = some final) :
    (∀ before after t, events = before ++ after →
      replay (Tracker.step limits) before Tracker.empty = some t → Conserved limits.lan t) ↔
    ∀ before j minIp after t ct, events = before ++ .dnat j minIp :: after →
      replay (Tracker.step limits) before Tracker.empty = some t → t.live[j]? = some ct →
      (checkConntrackRatioInDnat limits ct minIp t).isSome → ct.DnatAgrees limits.lan minIp := by
  constructor
  · intro conserved before j minIp after t ct split here found
    have split' : events = (before ++ [.dnat j minIp]) ++ after := by rw [split]; simp
    obtain ⟨t', there⟩ := exists_replay_of_append (split' ▸ ran)
    have moved := there
    rw [replay_snoc, here] at moved
    exact ((conserved before _ t split here).dnat_iff found moved).1 (conserved _ _ t' split' there)
  · intro agrees
    refine replay_invariant conserved_empty ?_
    intro before event after t t' split here conserved moved
    cases event with
    | alloc original reply dropped memory =>
      obtain rfl := Option.some.inj moved
      exact conserved.alloc original reply dropped memory
    | expect j redirected => exact conserved.expect moved
    | free j => exact conserved.free moved
    | dnat j minIp =>
      obtain ⟨ct, found, -⟩ := map_eq_some_iff.1 moved
      exact (conserved.dnat_iff found moved).2 (agrees before j minIp after t ct split here found)

/-! ## Samples -/

namespace Sample

/-- A LAN 192.168.0.1/24, a table of 100 connections, and no other limits. -/
def smallTable (maxRatePerIp : Int32) : Limits := ⟨⟨[⟨0x0100a8c0, 0x00ffffff⟩], false⟩, 100, maxRatePerIp, 0, 0, 0⟩

/-- A TCP connection from 8.8.8.8. -/
def fromOutside (dst : UInt32) : Tuple := ⟨0x08080808, dst, ipprotoTcp⟩

def router : UInt32 := 0x0100a8c0

/-- 192.168.0.7, and its number. -/
def host : UInt32 := 0x0700a8c0

def hostIdx : Ipidx := ⟨7, by decide⟩

/-- 1.2.3.4, the address of the router on the other side. -/
def wan : UInt32 := 0x04030201

/-- A connection is made and forwarded to the host. -/
def forward (dst : UInt32) : List Event :=
  [.alloc (fromOutside dst) (fromOutside dst).invert false true, .dnat 0 host]

end Sample

open Sample

/-- A connection to the LAN address of the router is forwarded: the host is charged, but the tuples
still map to the router. -/
theorem dnat_of_local_leaks :
    (replay (Tracker.step (smallTable 10)) (forward router ++ [.free 0]) Tracker.empty).map
      (fun t => (t.live, t.countPerIp hostIdx)) = some ([], 1) := by decide

/-- A connection to the other address is charged to the host and discharged. -/
theorem port_forward_conserved :
    ∃ t, replay (Tracker.step (smallTable 10)) (forward wan) Tracker.empty = some t ∧
      t.countPerIp hostIdx = 1 ∧ Conserved (smallTable 10).lan t := by
  have ran : ((replay (Tracker.step (smallTable 10)) (forward wan) Tracker.empty).map
      fun t => t.countPerIp hostIdx) = some 1 := by decide
  obtain ⟨t, ran, counted⟩ := map_eq_some_iff.1 ran
  refine ⟨t, ran, counted, (conserved_iff _ _ t ran).2 ?_ _ [] t (append_nil _).symm ran⟩
  intro before j minIp after s ct split here found _
  -- the second of the two events is the DNAT
  rcases before with _ | ⟨first, _ | ⟨second, rest⟩⟩
  · cases split
  · cases split
    obtain rfl : ct = ⟨fromOutside wan, (fromOutside wan).invert⟩ := by
      obtain rfl := Option.some.inj here
      exact (Option.some.inj found).symm
    decide
  · have lengths := congrArg List.length split
    simp [forward] at lengths

end RouterApps.Conntrack
