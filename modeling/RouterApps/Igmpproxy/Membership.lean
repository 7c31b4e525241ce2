/-
# Igmpproxy.Membership -- the list of groups as a set of pairs (mc_switch.c)

The list of groups is there to say which host has joined which group.  It has two levels and neither
keeps a group's address: an entry stands for 23 of its bits, and its members keep the five others.
Still the list is a set of pairs of a group and a host, over any sequence of calls:

* two groups with the same bits on both levels are the same group (`same_group_iff`), and the
  address put together from an entry and a member is the group that was joined (`craftMip_of_group`);
* a join adds one pair, a leave takes it out, and the removal of an entry takes out all pairs
  whose group has its MAC address (`recorded_apply_iff`);
* so a pair is there exactly if a join of it was the last word on it (`membership_is_set`).
-/
import RouterApps.Igmpproxy.Members
import RouterApps.Theory.Run

namespace RouterApps.Igmpproxy

open CLib Theory List
open Theory.Table

/-- `remove_multicast_ip`; `find_entry` finds the entry that is unlinked. -/
def removeMulticastIp (mip : UInt32) (groups : List Entry) : List Entry :=
  Cursor.unlink Entry.mac groups (macBits mip)

/-- The calls that change who is a member. -/
inductive GroupOp
  | insertMulticastIp (mip uip : UInt32) (port : UInt8)
  | removeMember (mip uip : UInt32)
  | removeMulticastIp (mip : UInt32)
deriving DecidableEq

/-- The group that the call is about. -/
def GroupOp.mip : GroupOp → UInt32
  | .insertMulticastIp mip _ _ => mip
  | .removeMember mip _ => mip
  | .removeMulticastIp mip => mip

def GroupOp.apply (b : Board) (groups : List Entry) : GroupOp → List Entry
  | .insertMulticastIp mip uip port => Igmpproxy.insertMulticastIp b mip uip port groups
  | .removeMember mip uip => Igmpproxy.removeMember b mip uip groups
  | .removeMulticastIp mip => Igmpproxy.removeMulticastIp mip groups

def listed (b : Board) (ops : List GroupOp) : List Entry := ops.foldl (GroupOp.apply b) []

def Recorded (groups : List Entry) (mip uip : UInt32) : Prop :=
  ∃ e ∈ groups, e.mac = macBits mip ∧ ∃ m ∈ e.members, m.key = (uip, lostMapping mip)

/-- The address 0.0.1 below the bits that are lost. -/
def allHostsBits : UInt8 × UInt8 × UInt8 := (0, 0, 1)

/-- The call is a join of this pair that finds or makes an entry. -/
def GroupOp.Joins (mip uip : UInt32) (op : GroupOp) : Prop :=
  macBits mip ≠ allHostsBits ∧ ∃ port, op = .insertMulticastIp mip uip port

/-- The call takes the pair out: the host leaves the group, or the entry of the group goes. -/
def GroupOp.Parts (mip uip : UInt32) : GroupOp → Prop
  | .insertMulticastIp _ _ _ => False
  | .removeMember mip' uip' => mip' = mip ∧ uip' = uip
  | .removeMulticastIp mip' => macBits mip' = macBits mip

/-! ## Addresses -/

theorem lostMapping_lt (mip : UInt32) : lostMapping mip < 32 :=
  UInt8.lt_iff_toNat_lt.2 (lostMapping_toNat mip ▸ Nat.mod_lt _ (by decide))

theorem macBits_lt (mip : UInt32) : (macBits mip).1 < 128 :=
  UInt8.lt_iff_toNat_lt.2 ((macBits_toNat mip).1 ▸ Nat.mod_lt _ (by decide))

variable {mip : UInt32}

/-- **Both levels together tell groups apart.** -/
theorem same_group_iff {mip' : UInt32} (multicast : inMulticast mip = true) (multicast' : inMulticast mip' = true) :
    mip' = mip ↔ macBits mip' = macBits mip ∧ lostMapping mip' = lostMapping mip := by
  have top := toNat_of_inMulticast multicast
  have top' := toNat_of_inMulticast multicast'
  obtain ⟨one, two, three⟩ := macBits_toNat mip
  obtain ⟨one', two', three'⟩ := macBits_toNat mip'
  have lost := lostMapping_toNat mip
  have lost' := lostMapping_toNat mip'
  rw [Prod.ext_iff, Prod.ext_iff]
  simp only [← UInt8.toNat_inj, ← UInt32.toNat_inj]
  omega

theorem craftMip_of_group (multicast : inMulticast mip = true) {a0 a1 a2 a3 : UInt8}
    (lost : a0 = lostMapping mip) (mac : (a1, a2, a3) = macBits mip) : ntohl (craftMip a0 a1 a2 a3) = mip := by
  have small0 : a0 < 32 := lost ▸ lostMapping_lt mip
  have small1 : a1 < 128 := by
    have := macBits_lt mip
    rwa [← mac] at this
  have back : ntohl (ntohl mip) = mip := ntohl_ntohl mip
  have same : ntohl mip = craftMip a0 a1 a2 a3 := by
    rw [craftMip_eq_iff small0 small1 (by rw [back]; exact multicast), back]
    exact ⟨lost, mac⟩
  rw [← same, back]

/-! ## One call -/

section

variable {b : Board} {e : Entry} {groups : List Entry} {mip uip mip' uip' : UInt32} {port : UInt8}

theorem recorded_iff : Recorded groups mip uip ↔
    ∃ e ∈ groups, e.mac = macBits mip ∧ (uip, lostMapping mip) ∈ e.members.map Member.key := by
  simp [Recorded]

theorem mem_keys_insertMember (k : UInt32 × UInt8) : k ∈ (insertMember e mip uip port).members.map Member.key ↔
    k = (uip, lostMapping mip) ∨ k ∈ e.members.map Member.key := by
  unfold insertMember
  cases found : lookupMember e mip uip with
  | some m =>
    have same : (m.renew port).key = m.key := rfl
    simp only [map_updateFirst (f := Member.renew port) (g := Member.key) fun _ => rfl]
    refine (or_iff_right_of_imp ?_).symm
    rintro rfl
    have own : m.key = (uip, lostMapping mip) := by simpa using find?_some found
    exact own ▸ mem_map_of_mem (mem_of_find?_eq_some found)
  | none => simp [Member.key]

theorem mem_keys_removeFrom (apart : (e.members.map Member.key).Nodup) (k : UInt32 × UInt8) :
    k ∈ (removeFrom b mip uip e).members.map Member.key ↔
      k ≠ (uip, lostMapping mip) ∧ k ∈ e.members.map Member.key := by
  unfold removeFrom
  split
  · rename_i empty
    simp [empty]
  · simp only [updateGroupPortMap, Cursor.unlink_eq_filter apart, mem_map, mem_filter, decide_eq_true_eq]
    constructor
    · rintro ⟨m, ⟨inside, other⟩, rfl⟩
      exact ⟨other, m, inside, rfl⟩
    · rintro ⟨other, m, inside, rfl⟩
      exact ⟨m, ⟨inside, other⟩, rfl⟩

/-- What holds of the list between two calls. -/
structure Listing (b : Board) (groups : List Entry) : Prop where
  sound : SoundGroups b groups
  named : ∀ e ∈ groups, e.mac ≠ allHostsBits

theorem insertMember_mac (e : Entry) : (updateGroupPortMap b (insertMember e mip uip port)).mac = e.mac := by
  unfold insertMember
  split <;> rfl

section

variable (listing : Listing b groups)

include listing

theorem insertMulticastIp_cases (mip uip : UInt32) (port : UInt8) :
    (insertMulticastIp b mip uip port groups = groups ∧ macBits mip = allHostsBits) ∨
    (macBits mip ≠ allHostsBits ∧ ∃ e, e.mac = macBits mip ∧
      ((e ∈ groups ∧ insertMulticastIp b mip uip port groups = groups.map fun e =>
          if e.mac = macBits mip then updateGroupPortMap b (insertMember e mip uip port) else e) ∨
        (e.members = [] ∧ e.portMap = 0x0 ∧ (∀ e' ∈ groups, e'.mac ≠ macBits mip) ∧
          insertMulticastIp b mip uip port groups = updateGroupPortMap b (insertMember e mip uip port) :: groups))) := by
  unfold insertMulticastIp
  cases found : findEntry mip groups with
  | some e =>
    have inside := mem_of_find?_eq_some found
    have own : e.mac = macBits mip := by simpa using find?_some found
    refine .inr ⟨own ▸ listing.named e inside, e, own, .inl ⟨inside, ?_⟩⟩
    exact updateFirst_eq_map listing.sound.apart (macBits mip)
  | none =>
    have others : ∀ e' ∈ groups, e'.mac ≠ macBits mip := fun e' inside same =>
      find?_eq_none.1 found e' inside (decide_eq_true same)
    unfold buildEntry
    by_cases all : macBits mip = allHostsBits
    · exact .inl ⟨by simp [all, allHostsBits], all⟩
    · have built : ¬(macBits mip = (0, 0, 1)) := all
      refine .inr ⟨all, ⟨lostMapping mip, (macBits mip).1, (macBits mip).2.1, (macBits mip).2.2, 0x0, []⟩, rfl, .inr ⟨rfl, rfl, others, ?_⟩⟩
      simp only [built, if_false]

theorem Listing.insertMulticastIp (mip uip : UInt32) (port : UInt8) :
    Listing b (insertMulticastIp b mip uip port groups) where
  sound := insertMulticastIp_sound mip uip port listing.sound
  named := by
    rcases insertMulticastIp_cases listing mip uip port with ⟨same, -⟩ | ⟨real, e, own, ⟨-, written⟩ | ⟨-, -, -, written⟩⟩
    · rw [same]
      exact listing.named
    · rw [written]
      intro e' inside
      obtain ⟨old, there, rfl⟩ := mem_map.1 inside
      have named := listing.named old there
      split
      · rwa [insertMember_mac]
      · exact named
    · rw [written]
      refine forall_mem_cons.2 ⟨?_, listing.named⟩
      rw [insertMember_mac, own]
      exact real

theorem removeMember_eq (mip uip : UInt32) :
    removeMember b mip uip groups = groups.map fun e => if e.mac = macBits mip then removeFrom b mip uip e else e :=
  updateFirst_eq_map listing.sound.apart (macBits mip)

theorem Listing.removeMember (mip uip : UInt32) : Listing b (removeMember b mip uip groups) where
  sound := removeMember_sound mip uip listing.sound
  named := by
    rw [removeMember_eq listing]
    intro e' inside
    obtain ⟨old, there, rfl⟩ := mem_map.1 inside
    have named := listing.named old there
    split
    · rwa [removeFrom_mac]
    · exact named

theorem removeMulticastIp_eq (mip : UInt32) :
    removeMulticastIp mip groups = groups.filter fun e => e.mac ≠ macBits mip :=
  Cursor.unlink_eq_filter listing.sound.apart (macBits mip)

theorem Listing.removeMulticastIp (mip : UInt32) : Listing b (removeMulticastIp mip groups) := by
  have sub : (Igmpproxy.removeMulticastIp mip groups).Sublist groups := eraseP_sublist
  exact ⟨⟨fun e inside => listing.sound.entries e (sub.subset inside), listing.sound.apart.sublist (sub.map _)⟩,
    fun e inside => listing.named e (sub.subset inside)⟩

end

theorem listing_nil (b : Board) : Listing b [] := ⟨⟨by simp, nodup_nil⟩, by simp⟩

theorem Listing.apply (listing : Listing b groups) (op : GroupOp) : Listing b (op.apply b groups) := by
  cases op with
  | insertMulticastIp mip uip port => exact listing.insertMulticastIp mip uip port
  | removeMember mip uip => exact listing.removeMember mip uip
  | removeMulticastIp mip => exact listing.removeMulticastIp mip

theorem listing_listed (b : Board) (ops : List GroupOp) : Listing b (listed b ops) :=
  foldlRecOn ops (GroupOp.apply b) (listing_nil b) fun _ listing op _ => listing.apply op

/-! ## The pairs -/

variable {f : Entry → Entry}

theorem recorded_map (macs : ∀ e, (f e).mac = e.mac) (k : UInt8 × UInt8 × UInt8) :
    Recorded (groups.map fun e => if e.mac = k then f e else e) mip uip ↔
      ∃ e ∈ groups, e.mac = macBits mip ∧
        (uip, lostMapping mip) ∈ (if macBits mip = k then f e else e).members.map Member.key := by
  rw [recorded_iff]
  constructor
  · rintro ⟨e', inside, own, member⟩
    obtain ⟨e, there, rfl⟩ := mem_map.1 inside
    have same : e.mac = macBits mip := by
      rw [← own]
      split
      · exact (macs e).symm
      · rfl
    exact ⟨e, there, same, same ▸ member⟩
  · rintro ⟨e, inside, own, member⟩
    refine ⟨_, mem_map_of_mem inside, ?_, own ▸ member⟩
    split
    · rw [macs, own]
    · exact own

theorem recorded_insert_iff (listing : Listing b groups) :
    Recorded (insertMulticastIp b mip' uip' port groups) mip uip ↔
      (macBits mip ≠ allHostsBits ∧ macBits mip' = macBits mip ∧ (uip, lostMapping mip) = (uip', lostMapping mip')) ∨
      Recorded groups mip uip := by
  rcases insertMulticastIp_cases listing mip' uip' port with
    ⟨same, all⟩ | ⟨real, e, own, ⟨inside, written⟩ | ⟨empty, -, others, written⟩⟩
  · rw [same]
    refine (or_iff_right ?_).symm
    rintro ⟨real, shared, -⟩
    exact real (shared ▸ all)
  · rw [written, recorded_map insertMember_mac]
    by_cases shared : macBits mip = macBits mip'
    · simp only [shared, if_true, updateGroupPortMap, mem_keys_insertMember, recorded_iff]
      constructor
      · rintro ⟨e', there, own', new | old⟩
        · exact .inl ⟨real, trivial, new⟩
        · exact .inr ⟨e', there, own', old⟩
      · rintro (⟨-, -, new⟩ | ⟨e', there, own', old⟩)
        · exact ⟨e, inside, own, .inl new⟩
        · exact ⟨e', there, own', .inr old⟩
    · rw [recorded_iff]
      simp only [shared, if_false, Ne.symm shared, false_and, and_false, false_or]
  · rw [written, recorded_iff, recorded_iff, exists_mem_cons_iff, insertMember_mac, own]
    refine or_congr_left ?_
    simp only [updateGroupPortMap, mem_keys_insertMember, empty, map_nil, not_mem_nil, or_false]
    constructor
    · rintro ⟨shared, new⟩
      exact ⟨shared ▸ real, shared, new⟩
    · rintro ⟨-, shared, new⟩
      exact ⟨shared, new⟩

theorem recorded_removeMember_iff (listing : Listing b groups) : Recorded (removeMember b mip' uip' groups) mip uip ↔
      ¬(macBits mip' = macBits mip ∧ (uip, lostMapping mip) = (uip', lostMapping mip')) ∧ Recorded groups mip uip := by
  rw [removeMember_eq listing, recorded_map (removeFrom_mac mip' uip'), recorded_iff]
  by_cases shared : macBits mip = macBits mip'
  · simp only [shared, true_and]
    constructor
    · rintro ⟨e, inside, own, member⟩
      obtain ⟨other, member⟩ := (mem_keys_removeFrom (listing.sound.entries e inside).apart _).1 member
      exact ⟨other, e, inside, own, member⟩
    · rintro ⟨other, e, inside, own, member⟩
      exact ⟨e, inside, own, (mem_keys_removeFrom (listing.sound.entries e inside).apart _).2 ⟨other, member⟩⟩
  · simp only [shared, if_false, Ne.symm shared, false_and, not_false_eq_true, true_and]

theorem recorded_removeMulticastIp_iff (listing : Listing b groups) :
    Recorded (removeMulticastIp mip' groups) mip uip ↔ macBits mip' ≠ macBits mip ∧ Recorded groups mip uip := by
  rw [removeMulticastIp_eq listing]
  simp only [Recorded, mem_filter, decide_eq_true_eq]
  constructor
  · rintro ⟨e, ⟨inside, other⟩, own, member⟩
    exact ⟨fun shared => other (own.trans shared.symm), e, inside, own, member⟩
  · rintro ⟨other, e, inside, own, member⟩
    exact ⟨e, ⟨inside, fun shared => other (shared.symm.trans own)⟩, own, member⟩

theorem same_pair_iff (multicast : inMulticast mip = true) (multicast' : inMulticast mip' = true) :
    macBits mip' = macBits mip ∧ (uip, lostMapping mip) = (uip', lostMapping mip') ↔ mip' = mip ∧ uip' = uip := by
  rw [same_group_iff multicast multicast']
  constructor
  · rintro ⟨mac, pair⟩
    obtain ⟨host, lost⟩ := Prod.mk.inj pair
    exact ⟨⟨mac, lost.symm⟩, host.symm⟩
  · rintro ⟨⟨mac, lost⟩, rfl⟩
    exact ⟨mac, by rw [lost]⟩

/-- **What a call does to a pair.** -/
theorem recorded_apply_iff (listing : Listing b groups) (op : GroupOp) (multicast : inMulticast mip = true)
    (multicast' : inMulticast op.mip = true) : Recorded (op.apply b groups) mip uip ↔
      op.Joins mip uip ∨ (¬op.Parts mip uip ∧ Recorded groups mip uip) := by
  cases op with
  | insertMulticastIp mip' uip' port =>
    have group : inMulticast mip' = true := multicast'
    rw [GroupOp.apply, recorded_insert_iff listing, same_pair_iff multicast group]
    simp [GroupOp.Joins, GroupOp.Parts]
  | removeMember mip' uip' =>
    have group : inMulticast mip' = true := multicast'
    rw [GroupOp.apply, recorded_removeMember_iff listing, same_pair_iff multicast group]
    simp [GroupOp.Joins, GroupOp.Parts]
  | removeMulticastIp mip' =>
    rw [GroupOp.apply, recorded_removeMulticastIp_iff listing]
    simp [GroupOp.Joins, GroupOp.Parts]

/-- Each member is that of a multicast group. -/
def Placed (groups : List Entry) : Prop :=
  ∀ e ∈ groups, ∀ k ∈ e.members.map Member.key, ∃ mip, inMulticast mip = true ∧ e.mac = macBits mip ∧
    k.2 = lostMapping mip

theorem Placed.map {k : UInt8 × UInt8 × UInt8} (placed : Placed groups) (macs : ∀ e, (f e).mac = e.mac)
    (keys : ∀ e ∈ groups, e.mac = k → ∀ key ∈ (f e).members.map Member.key, key ∈ e.members.map Member.key ∨
      ∃ mip, inMulticast mip = true ∧ e.mac = macBits mip ∧ key.2 = lostMapping mip) :
    Placed (groups.map fun e => if e.mac = k then f e else e) := by
  intro e' inside key member
  obtain ⟨e, there, rfl⟩ := mem_map.1 inside
  by_cases own : e.mac = k
  · rw [if_pos own] at member ⊢
    rw [macs]
    rcases keys e there own key member with old | new
    · exact placed e there key old
    · exact new
  · rw [if_neg own] at member ⊢
    exact placed e there key member

theorem Placed.apply (placed : Placed groups) (listing : Listing b groups) (op : GroupOp)
    (multicast : inMulticast op.mip = true) : Placed (op.apply b groups) := by
  cases op with
  | insertMulticastIp mip uip port =>
    have group : inMulticast mip = true := multicast
    show Placed (insertMulticastIp b mip uip port groups)
    rcases insertMulticastIp_cases listing mip uip port with
      ⟨same, -⟩ | ⟨-, e, own, ⟨-, written⟩ | ⟨empty, -, -, written⟩⟩
    · rwa [same]
    · rw [written]
      refine placed.map insertMember_mac fun e _ own key member => ?_
      rcases (mem_keys_insertMember key).1 member with rfl | old
      · exact .inr ⟨mip, group, own, rfl⟩
      · exact .inl old
    · rw [written]
      refine forall_mem_cons.2 ⟨fun key member => ?_, placed⟩
      rcases (mem_keys_insertMember key).1 member with rfl | old
      · exact ⟨mip, group, (insertMember_mac e).trans own, rfl⟩
      · simp [empty] at old
  | removeMember mip uip =>
    show Placed (removeMember b mip uip groups)
    rw [removeMember_eq listing]
    refine placed.map (removeFrom_mac mip uip) fun e inside _ key member => .inl ?_
    exact ((mem_keys_removeFrom (listing.sound.entries e inside).apart key).1 member).2
  | removeMulticastIp mip =>
    show Placed (removeMulticastIp mip groups)
    rw [removeMulticastIp_eq listing]
    exact fun e inside => placed e (mem_filter.1 inside).1

end

theorem placed_listed (b : Board) (ops : List GroupOp) (multicast : ∀ op ∈ ops, inMulticast op.mip = true) :
    Placed (listed b ops) := by
  refine (foldlRecOn (motive := fun groups => Listing b groups ∧ Placed groups) ops (GroupOp.apply b)
    ⟨listing_nil b, by simp [Placed]⟩ ?_).2
  rintro groups ⟨listing, placed⟩ op inside
  exact ⟨listing.apply op, placed.apply listing op (multicast op inside)⟩

theorem recorded_listed_iff (b : Board) (ops : List GroupOp) (multicast : ∀ op ∈ ops, inMulticast op.mip = true)
    (group : inMulticast mip = true) (uip : UInt32) :
    Recorded (listed b ops) mip uip ↔ AddedLast (GroupOp.Joins mip uip) (GroupOp.Parts mip uip) ops := by
  refine (foldl_addedLast_iff (P := fun groups => Recorded groups mip uip) (listing_nil b)
    (by simp [Recorded]) ops (fun groups op _ holds => holds.apply op) ?_).2
  exact fun groups op inside holds => recorded_apply_iff holds op group (multicast op inside)

/-- **The list of groups is a set of pairs.**  After any calls about multicast groups
* there is one entry for the low bits of a group, and one member for a host and a group;
* a pair is recorded exactly if it was joined and then not left, by the host or with the entry;
* each member is recorded for the group whose address it gives with its entry. -/
theorem membership_is_set (b : Board) (ops : List GroupOp) (multicast : ∀ op ∈ ops, inMulticast op.mip = true) :
    ((listed b ops).map Entry.mac).Nodup ∧
    (∀ e ∈ listed b ops, (e.members.map Member.key).Nodup) ∧
    (∀ mip uip, inMulticast mip = true →
      (Recorded (listed b ops) mip uip ↔ AddedLast (GroupOp.Joins mip uip) (GroupOp.Parts mip uip) ops)) ∧
    ∀ e ∈ listed b ops, ∀ m ∈ e.members, ∃ mip, inMulticast mip = true ∧ e.mac = macBits mip ∧
      m.a0 = lostMapping mip ∧ ntohl (craftMip m.a0 e.a1 e.a2 e.a3) = mip ∧
      AddedLast (GroupOp.Joins mip m.ipAddr) (GroupOp.Parts mip m.ipAddr) ops := by
  have listing := listing_listed b ops
  refine ⟨listing.sound.apart, fun e inside => (listing.sound.entries e inside).apart,
    fun mip uip group => recorded_listed_iff b ops multicast group uip, ?_⟩
  intro e inside m member
  obtain ⟨mip, group, mac, lost⟩ := placed_listed b ops multicast e inside m.key (List.mem_map_of_mem member)
  refine ⟨mip, group, mac, lost, craftMip_of_group group lost mac, ?_⟩
  rw [← recorded_listed_iff b ops multicast group]
  exact ⟨e, inside, mac, m, member, by rw [Member.key, show m.a0 = lostMapping mip from lost]⟩

/-- 239.1.2.3 is joined by two hosts and left by one; 239.129.2.3 has the same entry. -/
def fourCalls : List GroupOp :=
  [.insertMulticastIp 0xef010203 0xc0a80002 1, .insertMulticastIp 0xef810203 0xc0a80002 1,
    .insertMulticastIp 0xef010203 0xc0a80003 2, .removeMember 0xef010203 0xc0a80002]

theorem membership_is_set_fourCalls : (∀ op ∈ fourCalls, inMulticast op.mip = true) ∧
    (Recorded (listed ⟨true, 0x5e, some 0x7f⟩ fourCalls) 0xef010203 0xc0a80002 ↔
      AddedLast (GroupOp.Joins 0xef010203 0xc0a80002) (GroupOp.Parts 0xef010203 0xc0a80002) fourCalls) ∧
    (listed ⟨true, 0x5e, some 0x7f⟩ fourCalls).length = 1 := by
  have multicast : ∀ op ∈ fourCalls, inMulticast op.mip = true := by decide
  exact ⟨multicast, (membership_is_set _ fourCalls multicast).2.2.1 _ _ (by decide), by decide +kernel⟩

end RouterApps.Igmpproxy
