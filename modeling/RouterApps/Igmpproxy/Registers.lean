/-
# Igmpproxy.Registers -- the ports of a group in the switch (mc_switch.c, salsa2.c)

The switch is told of a group when its port map has changed, and of all groups when the port of the
multicast router has.  The map goes to the register of the group shifted by one, as port 0 of the
switch is the CPU; the bit of the router's port is set beside it without the shift.

* The register of a group has its map and the current router port, at any time (`Snooper.Inv.told`).
* But the router's port `r` is bit `r` and not bit `r + 1`.  So the router is reached only where a
  member has its port, and the port below it is opened in its place (`registers_cover_iff`).

The tables of the switch are those of `Salsa2.Coherent`, in which some slots may be reserved for the
group of all hosts.
-/
import RouterApps.Igmpproxy.PortMaps
import RouterApps.Salsa2.Coherent

namespace RouterApps.Igmpproxy

open CLib Theory List Option
open Salsa2 (Logged maxMgroup allHostsMac)

/-- What `updateMacTable` reads of an entry. -/
def Entry.group (e : Entry) : Salsa2.Group := ⟨e.a1, e.a2, e.a3, e.portMap⟩

/-- The groups, the switch, and `igmp_router_port`. -/
structure Snooper where
  groups : List Entry
  logged : Logged
  igmpRouterPort : Int

/-- The call of `updateMacTable`. -/
def Snooper.updateMacTable (x : Snooper) (entry : Salsa2.Group) : Option Snooper :=
  (x.logged.update ⟨entry, x.igmpRouterPort⟩).map fun logged => { x with logged := logged }

/-- The end of `update_group_port_map`: a port map that has changed is told.  A new entry starts
with the empty map. -/
def Snooper.rewritten (x : Snooper) (mip : UInt32) (groups : List Entry) : Option Snooper :=
  match findEntry mip groups with
  | none => some { x with groups := groups }
  | some e =>
    if ((findEntry mip x.groups).map Entry.portMap).getD 0x0 = e.portMap then some { x with groups := groups }
    else { x with groups := groups }.updateMacTable e.group

def Snooper.change (b : Board) (x : Snooper) : GroupOp → Option Snooper
  | .insertMulticastIp mip uip port => x.rewritten mip (insertMulticastIp b mip uip port x.groups)
  | .removeMember mip uip => x.rewritten mip (removeMember b mip uip x.groups)
  | .removeMulticastIp mip =>
    match findEntry mip x.groups with
    | none => some x
    | some e => { x with groups := removeMulticastIp mip x.groups }.updateMacTable { e.group with portMap := 0x0 }

/-- `update_router_port`; `port` is what `portLookUpByIP` returns. -/
def Snooper.updateRouterPort (x : Snooper) (port : Int) : Option Snooper :=
  if port = x.igmpRouterPort then some x
  else if 0 ≤ port then
    (replay (fun (l : Logged) (e : Entry) => l.update ⟨e.group, port⟩) x.groups x.logged).map fun logged =>
      { x with logged := logged, igmpRouterPort := port }
  else some { x with igmpRouterPort := port }

inductive SnoopOp
  | change (op : GroupOp)
  | updateRouterPort (port : Int)
deriving DecidableEq

def Snooper.apply (b : Board) (x : Snooper) : SnoopOp → Option Snooper
  | .change op => x.change b op
  | .updateRouterPort port => x.updateRouterPort port

/-- The groups do not depend on the switch. -/
def SnoopOp.groups (b : Board) (groups : List Entry) : SnoopOp → List Entry
  | .change op => op.apply b groups
  | .updateRouterPort _ => groups

def groupsAfter (b : Board) (ops : List SnoopOp) : List Entry := ops.foldl (SnoopOp.groups b) []

/-- The ports that the calls looked up are ports of the switch. -/
def SnoopOp.Ports : SnoopOp → Prop
  | .change (.insertMulticastIp _ _ port) => port ≤ 30
  | .change _ => True
  | .updateRouterPort port => 0 ≤ port ∧ port ≤ 30

instance (op : SnoopOp) : Decidable op.Ports := by
  rcases op with (_ | _ | _) | _ <;> unfold SnoopOp.Ports <;> infer_instance

/-! ## What the switch has been told -/

/-- The switch has the map of the entry with the router port `port`, and nothing if the map is empty. -/
def Told (l : Logged) (port : Int) (e : Entry) : Prop :=
  ∀ map, l.Active e.group.mac map ↔ e.portMap ≠ 0 ∧ map = e.group.switchMap port

/-- Between two operations: each group is told, and no other group but those reserved has a slot. -/
structure Snooper.Inv (b : Board) (reserved : Finset (Block 6)) (x : Snooper) : Prop where
  listing : Listing b x.groups
  ports : PortsIn (fun port => port ≤ 30) x.groups
  coherent : x.logged.Coherent
  told : ∀ e ∈ x.groups, Told x.logged x.igmpRouterPort e
  occupied : ∀ mac map, x.logged.Active mac map → mac ∈ reserved ∨ ∃ e ∈ x.groups, e.group.mac = mac

variable {e : Entry} {e' : Entry}

theorem group_mac_eq_iff : e.group.mac = e'.group.mac ↔ e.mac = e'.mac := by
  simp [Entry.group, Salsa2.Group.mac, Entry.mac]

theorem group_mac_ne_allHosts (named : e.mac ≠ allHostsBits) : e.group.mac ≠ allHostsMac := by
  intro same
  have bits : e.mac = (Entry.mac ⟨0, 0, 0, 1, 0, []⟩) := group_mac_eq_iff.1 same
  exact named bits

variable {b : Board}

theorem portMap_lt (wireless : b.Wireless) (sound : e.Sound b)
    (ports : ∀ m ∈ e.members, m.portNum ≤ 30) : e.portMap.toNat < 2 ^ 31 := by
  refine Nat.lt_pow_two_of_testBit _ fun i high => ?_
  rw [sound.mapped, newPortmap_testBit wireless ports]
  simp only [UInt32.toNat_zero, Nat.zero_testBit, Bool.false_or, List.any_eq_false, decide_eq_true_eq]
  intro m member same
  have := UInt8.le_iff_toNat_le.1 (ports m member)
  simp at this
  omega

section

variable {b : Board} {reserved : Finset (Block 6)} {x : Snooper}

def slotsFor (reserved : Finset (Block 6)) (groups : List Entry) : Finset (Block 6) :=
  reserved ∪ (groups.map fun e => e.group.mac).toFinset

variable {groups : List Entry} {l l' : Logged} {entry : Salsa2.Group} {port : Int} {mip : UInt32}

theorem card_slotsFor (few : groups.length + reserved.card ≤ maxMgroup) :
    (slotsFor reserved groups).card ≤ maxMgroup := by
  have union := Finset.card_union_le reserved (groups.map fun e => e.group.mac).toFinset
  have distinct := toFinset_card_le (groups.map fun e => e.group.mac)
  rw [length_map] at distinct
  unfold slotsFor
  omega

theorem mem_slotsFor {mac : Block 6} :
    mac ∈ slotsFor reserved groups ↔ mac ∈ reserved ∨ ∃ e ∈ groups, e.group.mac = mac := by
  simp [slotsFor]

structure Tells (l l' : Logged) (entry : Salsa2.Group) (port : Int) : Prop where
  coherent : l'.Coherent
  own : ∀ map, l'.Active entry.mac map ↔ entry.portMap ≠ 0 ∧ map = entry.switchMap port
  others : ∀ mac, mac ≠ entry.mac → ∀ map, l'.Active mac map ↔ l.Active mac map

theorem exists_tells (coherent : l.Coherent) (occupied : ∀ mac map, l.Active mac map → mac ∈ slotsFor reserved groups)
    (few : groups.length + reserved.card ≤ maxMgroup)
    (inside : entry.mac ∈ slotsFor reserved groups) (below : entry.portMap.toNat < 2 ^ 31) (port : Int) :
    ∃ l', l.update ⟨entry, port⟩ = some l' ∧ Tells l l' entry port := by
  have room := coherent.index_isSome occupied inside (card_slotsFor few)
  obtain ⟨l', done, coherent', active⟩ := coherent.update_of_room (u := ⟨entry, port⟩)
    (Salsa2.switchMap_ne_zero below port) room
  refine ⟨l', done, coherent', fun map => ?_, fun mac other map => ?_⟩
  · simp [active]
  · simp [active, other]

theorem Tells.told (tells : Tells l l' e.group port) : Told l' port e :=
  tells.own

/-- A group with another MAC address keeps what it was told. -/
theorem Tells.keeps {port' : Int} (tells : Tells l l' entry port')
    (other : e.group.mac ≠ entry.mac) (told : Told l port e) : Told l' port e :=
  fun map => (tells.others e.group.mac other map).trans (told map)

theorem Tells.occupied (tells : Tells l l' entry port) {P : Block 6 → Prop} (own : entry.portMap ≠ 0 → P entry.mac)
    (before : ∀ mac map, mac ≠ entry.mac → l.Active mac map → P mac) : ∀ mac map, l'.Active mac map → P mac := by
  intro mac map active
  by_cases same : mac = entry.mac
  · subst same
    exact own ((tells.own map).1 active).1
  · exact before mac map same ((tells.others mac same map).1 active)

theorem Told.congr (same : e'.group = e.group) (told : Told l port e) : Told l port e' := by
  have map : e'.portMap = e.portMap := congrArg Salsa2.Group.portMap same
  unfold Told
  rw [same, map]
  exact told

structure Rewrites (mip : UInt32) (groups groups' : List Entry) : Prop where
  others : ∀ e' ∈ groups', e'.mac ≠ macBits mip → e' ∈ groups
  kept : ∀ e ∈ groups, ∃ e' ∈ groups', e'.mac = e.mac

theorem rewrites_map {f : Entry → Entry} (macs : ∀ e, (f e).mac = e.mac) :
    Rewrites mip groups (groups.map fun e => if e.mac = macBits mip then f e else e) where
  others := by
    intro e' inside other
    obtain ⟨e, there, rfl⟩ := mem_map.1 inside
    by_cases own : e.mac = macBits mip
    · rw [if_pos own, macs] at other
      exact absurd own other
    · rwa [if_neg own]
  kept := by
    intro e inside
    refine ⟨_, mem_map_of_mem inside, ?_⟩
    split
    · exact macs e
    · rfl

theorem rewrites_insert (listing : Listing b groups) (mip uip : UInt32) (port : UInt8) :
    Rewrites mip groups (insertMulticastIp b mip uip port groups) := by
  rcases insertMulticastIp_cases listing mip uip port with
    ⟨same, -⟩ | ⟨-, e, own, ⟨-, written⟩ | ⟨-, -, -, written⟩⟩
  · rw [same]
    exact ⟨fun _ inside _ => inside, fun e inside => ⟨e, inside, rfl⟩⟩
  · rw [written]
    exact rewrites_map insertMember_mac
  · rw [written]
    refine ⟨fun e' inside other => ?_, fun e inside => ⟨e, mem_cons_of_mem _ inside, rfl⟩⟩
    rcases mem_cons.1 inside with rfl | old
    · exact absurd ((insertMember_mac e).trans own) other
    · exact old

theorem mem_findEntry (found : findEntry mip groups = some e) : e ∈ groups ∧ e.mac = macBits mip :=
  ⟨mem_of_find?_eq_some found, by simpa using find?_some found⟩

theorem findEntry_eq_none (absent : findEntry mip groups = none) : ∀ e ∈ groups, e.mac ≠ macBits mip :=
  fun e inside same => find?_eq_none.1 absent e inside (decide_eq_true same)

theorem Listing.eq_of_mac (listing : Listing b groups) (he : e ∈ groups)
    (he' : e' ∈ groups) (same : e.mac = e'.mac) : e = e' :=
  inj_on_of_nodup_map listing.sound.apart he he' same

section

variable (inv : x.Inv b reserved)

include inv

section

variable (only : reserved ⊆ {allHostsMac})

include only

theorem Snooper.Inv.untold (named : e.mac ≠ allHostsBits) (absent : ∀ e' ∈ x.groups, e'.mac ≠ e.mac) (map : UInt32) :
    ¬x.logged.Active e.group.mac map := by
  intro active
  rcases inv.occupied _ map active with fixed | ⟨e', inside, same⟩
  · exact group_mac_ne_allHosts named (Finset.mem_singleton.1 (only fixed))
  · exact absent e' inside (group_mac_eq_iff.1 same)

/-- A map that is what it was: the old entry was told, or there was none and the map is empty. -/
theorem Snooper.Inv.told_of_same (named : e.mac ≠ allHostsBits) (own : e.mac = macBits mip)
    (same : ((findEntry mip x.groups).map Entry.portMap).getD 0x0 = e.portMap) : Told x.logged x.igmpRouterPort e := by
  cases old : findEntry mip x.groups with
  | some e₀ =>
    obtain ⟨inside₀, own₀⟩ := mem_findEntry old
    rw [old] at same
    refine (inv.told e₀ inside₀).congr ?_
    obtain ⟨one, rest⟩ := Prod.mk.inj (own.trans own₀.symm)
    obtain ⟨two, three⟩ := Prod.mk.inj rest
    have map : e₀.portMap = e.portMap := same
    simp [Entry.group, one, two, three, map]
  | none =>
    rw [old] at same
    have empty : e.portMap = 0 := same.symm
    refine fun map => iff_of_false ?_ fun both => both.1 empty
    refine inv.untold only named (fun e₁ inside₁ same₁ => ?_) map
    exact findEntry_eq_none old e₁ inside₁ (same₁.trans own)

/-- **A change of the members of one group**: the switch is told if the map has changed. -/
theorem Snooper.Inv.rewritten (wireless : b.Wireless)
    (listing : Listing b groups) (ports : PortsIn (fun port => port ≤ 30) groups)
    (rewrites : Rewrites mip x.groups groups) (few : groups.length + reserved.card ≤ maxMgroup) :
    ∃ x', x.rewritten mip groups = some x' ∧ x'.Inv b reserved ∧ x'.groups = groups ∧
      x'.igmpRouterPort = x.igmpRouterPort := by
  have occupied : ∀ mac map, x.logged.Active mac map → mac ∈ reserved ∨ ∃ e ∈ groups, e.group.mac = mac := by
    intro mac map active
    rcases inv.occupied mac map active with fixed | ⟨e, inside, rfl⟩
    · exact .inl fixed
    · obtain ⟨e', there, same⟩ := rewrites.kept e inside
      exact .inr ⟨e', there, group_mac_eq_iff.2 same⟩
  unfold Snooper.rewritten
  cases found : findEntry mip groups with
  | none =>
    refine ⟨_, rfl, ⟨listing, ports, inv.coherent, fun e inside => ?_, occupied⟩, rfl, rfl⟩
    exact inv.told e (rewrites.others e inside (findEntry_eq_none found e inside))
  | some e =>
    obtain ⟨inside, own⟩ := mem_findEntry found
    have others : ∀ e' ∈ groups, e' ≠ e → Told x.logged x.igmpRouterPort e' := by
      intro e' inside' other
      refine inv.told e' (rewrites.others e' inside' fun same => other ?_)
      exact listing.eq_of_mac inside' inside (same.trans own.symm)
    dsimp only
    split
    · rename_i same
      refine ⟨_, rfl, ⟨listing, ports, inv.coherent, fun e' inside' => ?_, occupied⟩, rfl, rfl⟩
      by_cases this : e' = e
      · subst this
        exact inv.told_of_same only (listing.named e' inside) own same
      · exact others e' inside' this
    · have mayHave : ∀ mac map, x.logged.Active mac map → mac ∈ slotsFor reserved groups :=
        fun mac map active => mem_slotsFor.2 (occupied mac map active)
      obtain ⟨l', done, tells⟩ := exists_tells inv.coherent mayHave few (mem_slotsFor.2 (.inr ⟨e, inside, rfl⟩))
        (portMap_lt wireless (listing.sound.entries e inside) (ports e inside)) x.igmpRouterPort
      refine ⟨⟨groups, l', x.igmpRouterPort⟩, by rw [Snooper.updateMacTable, done, map_some],
        ⟨listing, ports, tells.coherent, ?_, ?_⟩, rfl, rfl⟩
      · intro e' inside'
        by_cases this : e' = e
        · subst this
          exact tells.told
        · refine tells.keeps (fun same => this ?_) (others e' inside' this)
          exact listing.eq_of_mac inside' inside (group_mac_eq_iff.1 same)
      · exact tells.occupied (fun _ => .inr ⟨e, inside, rfl⟩) fun mac map _ active => occupied mac map active

end

/-- **The removal of an entry**: the switch is told that the group has no port. -/
theorem Snooper.Inv.removed (mip : UInt32) (few : x.groups.length + reserved.card ≤ maxMgroup) :
    ∃ x', x.change b (.removeMulticastIp mip) = some x' ∧ x'.Inv b reserved ∧
      x'.groups = removeMulticastIp mip x.groups ∧ x'.igmpRouterPort = x.igmpRouterPort := by
  have rest := removeMulticastIp_eq inv.listing mip
  have within : ∀ e ∈ removeMulticastIp mip x.groups, e ∈ x.groups ∧ e.mac ≠ macBits mip := by
    intro e inside
    rw [rest] at inside
    simpa using mem_filter.1 inside
  simp only [Snooper.change]
  cases found : findEntry mip x.groups with
  | none =>
    have all : removeMulticastIp mip x.groups = x.groups := by
      rw [rest, filter_eq_self]
      exact fun e inside => decide_eq_true (findEntry_eq_none found e inside)
    exact ⟨x, rfl, inv, all.symm, rfl⟩
  | some e =>
    obtain ⟨inside, own⟩ := mem_findEntry found
    have mayHave : ∀ mac map, x.logged.Active mac map → mac ∈ slotsFor reserved x.groups :=
      fun mac map active => mem_slotsFor.2 (inv.occupied mac map active)
    have place : Salsa2.Group.mac { e.group with portMap := 0x0 } ∈ slotsFor reserved x.groups :=
      mem_slotsFor.2 (.inr ⟨e, inside, rfl⟩)
    obtain ⟨l', done, tells⟩ := exists_tells inv.coherent mayHave few place (Nat.two_pow_pos 31) x.igmpRouterPort
    refine ⟨⟨removeMulticastIp mip x.groups, l', x.igmpRouterPort⟩,
      by simp only [Snooper.updateMacTable, done, map_some], ⟨inv.listing.removeMulticastIp mip,
        inv.ports.removeMulticastIp, tells.coherent, fun e' inside' => ?_, ?_⟩, rfl, rfl⟩
    · obtain ⟨there, other⟩ := within e' inside'
      exact tells.keeps (fun same => other ((group_mac_eq_iff.1 same).trans own)) (inv.told e' there)
    · refine tells.occupied (fun some => absurd rfl some) fun mac map other active => ?_
      rcases inv.occupied mac map active with fixed | ⟨e', there, rfl⟩
      · exact .inl fixed
      · refine .inr ⟨e', ?_, rfl⟩
        rw [rest, mem_filter]
        exact ⟨there, decide_eq_true fun same => other (group_mac_eq_iff.2 (same.trans own.symm))⟩

end

/-- **All groups are told of a new router port.** -/
theorem refresh_tells (todo : List Entry) (within : ∀ e ∈ todo, e ∈ groups)
    (apart : (todo.map Entry.mac).Nodup) (below : ∀ e ∈ groups, e.portMap.toNat < 2 ^ 31)
    (few : groups.length + reserved.card ≤ maxMgroup) (port : Int) (coherent : l.Coherent)
    (occupied : ∀ mac map, l.Active mac map → mac ∈ slotsFor reserved groups) :
    ∃ l', replay (fun (l : Logged) (e : Entry) => l.update ⟨e.group, port⟩) todo l = some l' ∧ l'.Coherent ∧
      (∀ e ∈ todo, Told l' port e) ∧ (∀ mac map, l'.Active mac map → mac ∈ slotsFor reserved groups) ∧
      ∀ mac, (∀ e ∈ todo, e.group.mac ≠ mac) → ∀ map, l'.Active mac map ↔ l.Active mac map := by
  induction todo generalizing l with
  | nil => exact ⟨l, rfl, coherent, by simp, occupied, fun _ _ _ => Iff.rfl⟩
  | cons e rest ih =>
    obtain ⟨inside, within⟩ := forall_mem_cons.1 within
    obtain ⟨fresh, apart⟩ := nodup_cons.1 apart
    have place : e.group.mac ∈ slotsFor reserved groups := mem_slotsFor.2 (.inr ⟨e, inside, rfl⟩)
    obtain ⟨next, done, tells⟩ := exists_tells coherent occupied few place (below e inside) port
    obtain ⟨l', ran, coherent', told, occupied', others⟩ := ih within apart tells.coherent
      (tells.occupied (fun _ => place) fun mac map _ active => occupied mac map active)
    have later : ∀ e' ∈ rest, e'.group.mac ≠ e.group.mac := fun e' there same =>
      fresh (mem_map.2 ⟨e', there, group_mac_eq_iff.1 same⟩)
    refine ⟨l', by rw [replay, done, bind_some, ran], coherent', forall_mem_cons.2 ⟨?_, told⟩, occupied', ?_⟩
    · exact fun map => (others _ later map).trans (tells.told map)
    · intro mac absent map
      obtain ⟨notThis, absent⟩ := forall_mem_cons.1 absent
      exact (others mac absent map).trans (tells.others mac notThis.symm map)

theorem Snooper.Inv.routed (inv : x.Inv b reserved) (wireless : b.Wireless) (known : 0 ≤ port)
    (few : x.groups.length + reserved.card ≤ maxMgroup) :
    ∃ x', x.updateRouterPort port = some x' ∧ x'.Inv b reserved ∧ x'.groups = x.groups ∧ x'.igmpRouterPort = port := by
  unfold Snooper.updateRouterPort
  by_cases same : port = x.igmpRouterPort
  · exact ⟨x, by rw [if_pos same], inv, rfl, same.symm⟩
  · obtain ⟨l', ran, coherent, told, occupied, -⟩ := refresh_tells x.groups (fun _ inside => inside)
      inv.listing.sound.apart
      (fun e inside => portMap_lt wireless (inv.listing.sound.entries e inside) (inv.ports e inside)) few port
      inv.coherent fun mac map active => mem_slotsFor.2 (inv.occupied mac map active)
    refine ⟨⟨x.groups, l', port⟩, by rw [if_neg same, if_pos known, ran, map_some],
      ⟨inv.listing, inv.ports, coherent, told, fun mac map active => mem_slotsFor.1 (occupied mac map active)⟩, rfl, rfl⟩

def SnoopOp.routerPort (port : Int) : SnoopOp → Int
  | .change _ => port
  | .updateRouterPort port' => port'

/-- **One operation.** -/
theorem Snooper.Inv.apply (inv : x.Inv b reserved) (only : reserved ⊆ {allHostsMac}) (wireless : b.Wireless)
    (op : SnoopOp) (ports : op.Ports) (few : x.groups.length + reserved.card ≤ maxMgroup)
    (few' : (op.groups b x.groups).length + reserved.card ≤ maxMgroup) :
    ∃ x', x.apply b op = some x' ∧ x'.Inv b reserved ∧ x'.groups = op.groups b x.groups ∧
      x'.igmpRouterPort = op.routerPort x.igmpRouterPort := by
  cases op with
  | updateRouterPort port => exact inv.routed wireless ports.1 few
  | change op =>
    cases op with
    | insertMulticastIp mip uip port =>
      exact inv.rewritten only wireless (inv.listing.insertMulticastIp mip uip port)
        (inv.ports.insertMulticastIp ports) (rewrites_insert inv.listing mip uip port) few'
    | removeMember mip uip =>
      have rewrites : Rewrites mip x.groups (removeMember b mip uip x.groups) := by
        rw [removeMember_eq inv.listing]
        exact rewrites_map (removeFrom_mac mip uip)
      exact inv.rewritten only wireless (inv.listing.removeMember mip uip) inv.ports.removeMember rewrites few'
    | removeMulticastIp mip => exact inv.removed mip few

end

/-! ## All runs -/

/-- A start at which at most the group of all hosts has a slot. -/
structure Reserves (start : Logged) (reserved : Finset (Block 6)) : Prop where
  coherent : start.Coherent
  only : reserved ⊆ {allHostsMac}
  occupied : ∀ mac map, start.Active mac map → mac ∈ reserved

theorem snooper_run (wireless : b.Wireless) {start : Logged} {reserved : Finset (Block 6)}
    (reserves : Reserves start reserved) (ops : List SnoopOp) (ports : ∀ op ∈ ops, op.Ports)
    (few : ∀ before after, ops = before ++ after → (groupsAfter b before).length + reserved.card ≤ maxMgroup) :
    ∃ x, replay (Snooper.apply b) ops ⟨[], start, -1⟩ = some x ∧ x.Inv b reserved ∧ x.groups = groupsAfter b ops ∧
      x.igmpRouterPort = ops.foldl SnoopOp.routerPort (-1) := by
  induction ops using reverseRecOn with
  | nil =>
    refine ⟨_, rfl, ⟨listing_nil b, by simp [PortsIn], reserves.coherent, by simp, fun mac map active => ?_⟩, rfl, rfl⟩
    exact .inl (reserves.occupied mac map active)
  | append_singleton ops op ih =>
    obtain ⟨x, ran, inv, groups, port⟩ := ih (fun op' inside => ports op' (mem_append_left _ inside))
      fun before after split => few before (after ++ [op]) (by rw [split, append_assoc])
    have now := few ops [op] rfl
    have then' := few (ops ++ [op]) [] (append_nil _).symm
    rw [groupsAfter, foldl_append] at then'
    obtain ⟨x', done, inv', groups', port'⟩ := inv.apply reserves.only wireless op (ports op (by simp))
      (by rw [groups]; exact now) (by rw [groups]; exact then')
    refine ⟨x', by rw [replay_snoc, ran, bind_some, done], inv', ?_, ?_⟩
    · rw [groups', groups, groupsAfter, groupsAfter, foldl_append]
      rfl
    · rw [port', port, foldl_append]
      rfl

theorem routerPort_le (ops : List SnoopOp) (ports : ∀ op ∈ ops, op.Ports) : ops.foldl SnoopOp.routerPort (-1) ≤ 30 := by
  refine foldlRecOn (motive := fun port => port ≤ 30) ops SnoopOp.routerPort (by decide) ?_
  intro port below op inside
  have range := ports op inside
  cases op with
  | change _ => exact below
  | updateRouterPort port' => exact range.2

theorem switchMap_testBit_succ (entry : Salsa2.Group) (below : entry.portMap.toNat < 2 ^ 31) (some : entry.portMap ≠ 0)
    {port : Int} (small : port ≤ 30) (p : Nat) :
    (entry.switchMap port).toNat.testBit (p + 1) = (entry.portMap.toNat.testBit p || decide (port = p + 1)) := by
  have shifted : (entry.portMap <<< 1).toNat = entry.portMap.toNat <<< 1 := by
    rw [UInt32.toNat_shiftLeft]
    simp only [UInt32.reduceToNat, Nat.reduceMod]
    omega
  have router : (Salsa2.routerBit port).toNat.testBit (p + 1) = decide (port = p + 1) := by
    unfold Salsa2.routerBit
    split
    · have word : port.toNat.toUInt32.toNat = port.toNat := by
        rw [UInt32.toNat_ofNat', Nat.mod_eq_of_lt (by omega)]
      rw [testBit_one_shift (by omega), decide_eq_decide]
      omega
    · have no : ¬port = p + 1 := by omega
      simp [no]
  rw [Salsa2.Group.switchMap, if_pos some, UInt32.toNat_or, Nat.testBit_or, router, shifted]
  simp

/-- **The register covers the ports and the router exactly if the router's port is that of a member,
and so is the port below it if that was the router's before.** -/
theorem registers_cover_iff (b : Board) (wireless : b.Wireless) (start : Logged) (reserved : Finset (Block 6))
    (reserves : Reserves start reserved) (ops : List SnoopOp) (ports : ∀ op ∈ ops, op.Ports)
    (few : ∀ before after, ops = before ++ after → (groupsAfter b before).length + reserved.card ≤ maxMgroup) :
    ∃ x, replay (Snooper.apply b) ops ⟨[], start, -1⟩ = some x ∧
      ∀ e ∈ x.groups, e.portMap ≠ 0 → ∃ value, x.logged.switch.registerOf e.group.mac = some value ∧
        ((∀ p, e.portMap.toNat.testBit p → value.toNat.testBit (p + 1)) ∧
          (∀ r : Nat, x.igmpRouterPort = r → value.toNat.testBit (r + 1)) ∧
          (∀ r : Nat, .updateRouterPort r ∈ ops → x.igmpRouterPort ≠ r → value.toNat.testBit (r + 1) →
            e.portMap.toNat.testBit r) ↔
        (∀ r : Nat, x.igmpRouterPort = r → e.portMap.toNat.testBit r) ∧
          ∀ r : Nat, .updateRouterPort r ∈ ops → x.igmpRouterPort = r + 1 → e.portMap.toNat.testBit r) := by
  obtain ⟨x, ran, inv, -, port⟩ := snooper_run wireless reserves ops ports few
  refine ⟨x, ran, fun e inside some => ⟨e.group.switchMap x.igmpRouterPort, ?_, ?_⟩⟩
  · exact inv.coherent.registerOf_eq ((inv.told e inside _).2 ⟨some, rfl⟩)
  · have below := portMap_lt wireless (inv.listing.sound.entries e inside) (inv.ports e inside)
    have small : x.igmpRouterPort ≤ 30 := port ▸ routerPort_le ops ports
    have bits := switchMap_testBit_succ e.group below some small
    have same : e.group.portMap = e.portMap := rfl
    simp only [bits, Bool.or_eq_true, decide_eq_true_eq]
    constructor
    · rintro ⟨-, current, former⟩
      refine ⟨fun r here => (current r here).resolve_right (by omega), fun r was above => ?_⟩
      exact former r was (by omega) (.inr above)
    · rintro ⟨current, former⟩
      refine ⟨fun p set => .inl set, fun r here => .inl (current r here), fun r was _ set => ?_⟩
      rcases set with member | above
      · exact member
      · exact former r was above

/-- Both tables may be empty at the start, as they are without the group of all hosts. -/
theorem reserves_start : Reserves Logged.start ∅ := by
  refine ⟨Logged.start_coherent, Finset.empty_subset _, ?_⟩
  rintro mac map ⟨u, noted, -⟩
  cases noted

/-- A host on port 1 has joined, and the router is found on port 3. -/
def hostAndRouter : List SnoopOp :=
  [.change (.insertMulticastIp 0xef010203 0xc0a80002 1), .updateRouterPort 3]

/-- The register has bit 2 for the host and bit 3 for the router, which is port 2. -/
theorem router_port_misplaced :
    (replay (Snooper.apply ⟨true, 0x5e, some 0x7f⟩) hostAndRouter ⟨[], Logged.start, -1⟩).map (fun x =>
      (x.igmpRouterPort, x.groups.map fun e => (e.portMap, x.logged.switch.registerOf e.group.mac))) =
    some (3, [(0b10, some 0b1100)]) := by
  decide +kernel

theorem registers_cover_hostAndRouter :
    ∃ x, replay (Snooper.apply ⟨true, 0x5e, some 0x7f⟩) hostAndRouter ⟨[], Logged.start, -1⟩ = some x ∧
      ∀ e ∈ x.groups, e.portMap ≠ 0 → ∃ value, x.logged.switch.registerOf e.group.mac = some value := by
  have few : ∀ before ∈ hostAndRouter.inits,
      (groupsAfter ⟨true, 0x5e, some 0x7f⟩ before).length + (∅ : Finset (Block 6)).card ≤ maxMgroup := by
    decide +kernel
  obtain ⟨x, ran, covers⟩ := registers_cover_iff ⟨true, 0x5e, some 0x7f⟩
    (fun _ number => (Option.some.inj number).symm) Logged.start ∅ reserves_start hostAndRouter (by decide)
    fun before after split => few before ((mem_inits before _).2 ⟨after, split.symm⟩)
  exact ⟨x, ran, fun e inside some => (covers e inside some).imp fun _ both => both.1⟩

end RouterApps.Igmpproxy
