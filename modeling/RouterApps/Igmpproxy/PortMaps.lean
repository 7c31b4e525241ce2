/-
# Igmpproxy.PortMaps -- the ports that are opened for a group (mc_switch.c)

The port map of a group is computed anew from its members whenever one joins or leaves.  It has the
port of every member while all ports are known (`newPortmap_testBit`).  As soon as one is not, it is
a fixed map, which is meant to be all ports of the board (`newPortmap_of_unknown`), whatever ports
the others have (`port_map_covers_iff`).
-/
import RouterApps.Igmpproxy.Membership

namespace RouterApps.Igmpproxy

open Theory Theory.Table List

def portBit (map : UInt32) (port : UInt8) : Bool := map.toNat.testBit port.toNat

/-- What `portLookUpByIP` may return: -1, or a port of the switch. -/
def lookedUp (port : UInt8) : Bool := port = 0xff || port ≤ 30

/-- `WIRELESS_PORT_NUM`, on the boards that have it. -/
def Board.Wireless (b : Board) : Prop := ∀ port, b.wirelessPortNum = some port → port = 0x7f

/-- The ports that the calls found are such. -/
def Op.LookedUp : Op → Prop
  | .insertMulticastIp _ _ port => lookedUp port
  | .removeMember _ _ => True
  | .querySpecificMembers => True

instance (op : Op) : Decidable op.LookedUp := by
  cases op <;> unfold Op.LookedUp <;> infer_instance

/-! ## The ports of the members -/

/-- Every member has a port with this property. -/
def PortsIn (ok : UInt8 → Prop) (groups : List Entry) : Prop := ∀ e ∈ groups, ∀ m ∈ e.members, ok m.portNum

section

variable {b : Board} {ok : UInt8 → Prop} {groups : List Entry} {e : Entry} {mip uip : UInt32} {port : UInt8}

theorem ports_insertMember (found : ok port) (ports : ∀ m ∈ e.members, ok m.portNum) :
    ∀ m ∈ (insertMember e mip uip port).members, ok m.portNum := by
  unfold insertMember
  cases lookupMember e mip uip with
  | some _ =>
    intro m inside
    rcases mem_updateFirst inside with old | ⟨m', -, rfl⟩
    · exact ports m old
    · exact found
  | none => exact forall_mem_cons.2 ⟨found, ports⟩

theorem ports_removeFrom (ports : ∀ m ∈ e.members, ok m.portNum) :
    ∀ m ∈ (removeFrom b mip uip e).members, ok m.portNum := by
  unfold removeFrom
  split
  · exact ports
  · exact fun m inside => ports m (mem_of_mem_eraseP inside)

section

variable (ports : PortsIn ok groups)

include ports

theorem PortsIn.updateFirst {f : Entry → Entry} {p : Entry → Bool}
    (keeps : ∀ e, (∀ m ∈ e.members, ok m.portNum) → ∀ m ∈ (f e).members, ok m.portNum) :
    PortsIn ok (updateFirst p f groups) := by
  intro e inside
  rcases mem_updateFirst inside with old | ⟨e', there, rfl⟩
  · exact ports e old
  · exact keeps e' (ports e' (mem_of_find?_eq_some there))

theorem PortsIn.insertMulticastIp (found : ok port) : PortsIn ok (insertMulticastIp b mip uip port groups) := by
  unfold Igmpproxy.insertMulticastIp
  cases findEntry mip groups with
  | some _ => exact ports.updateFirst fun e => ports_insertMember found
  | none =>
    cases built : buildEntry mip with
    | none => exact ports
    | some e =>
      have empty : e.members = [] := by
        simp only [buildEntry] at built
        split at built
        · cases built
        · obtain rfl := Option.some.inj built
          rfl
      exact forall_mem_cons.2 ⟨ports_insertMember found (by simp [empty]), ports⟩

theorem PortsIn.removeMember : PortsIn ok (removeMember b mip uip groups) :=
  ports.updateFirst fun _ => ports_removeFrom

theorem PortsIn.removeMulticastIp : PortsIn ok (removeMulticastIp mip groups) :=
  fun e inside => ports e (mem_of_mem_eraseP inside)

theorem PortsIn.querySpecificMembers : PortsIn ok (querySpecificMembers b groups).1 := by
  intro e inside m member
  obtain ⟨e, there, rfl⟩ := mem_map.1 inside
  obtain ⟨old, joined, rfl⟩ := mem_map.1 member
  exact ports e there old joined

end

end

theorem ports_reached (b : Board) (ops : List Op) (lookups : ∀ op ∈ ops, op.LookedUp) :
    PortsIn (fun port => lookedUp port = true) (reached b ops) := by
  refine foldlRecOn ops (Op.apply b) (by simp [PortsIn]) ?_
  intro groups ports op inside
  have found := lookups op inside
  cases op with
  | insertMulticastIp mip uip port => exact ports.insertMulticastIp found
  | removeMember mip uip => exact ports.removeMember
  | querySpecificMembers => exact ports.querySpecificMembers

/-! ## The loop -/

theorem testBit_one_shift {shift : UInt32} (small : shift.toNat < 32) (i : Nat) :
    (1 <<< shift : UInt32).toNat.testBit i = decide (shift.toNat = i) := by
  have power : 2 ^ shift.toNat < 2 ^ 32 := Nat.pow_lt_pow_right (by decide) small
  have shifted : (1 <<< shift).toNat = 2 ^ shift.toNat := by
    rw [UInt32.toNat_shiftLeft, Nat.mod_eq_of_lt small, Nat.shiftLeft_eq]
    simpa using Nat.mod_eq_of_lt power
  rw [shifted, Nat.testBit_two_pow]

variable {members : List Member} {b : Board}

theorem newPortmap_testBit (wireless : b.Wireless) (known : ∀ m ∈ members, m.portNum ≤ 30) (map : UInt32) (i : Nat) :
    (newPortmap b members map).toNat.testBit i = (map.toNat.testBit i || members.any fun m => m.portNum.toNat = i) := by
  induction members generalizing map with
  | nil => simp [newPortmap]
  | cons m rest ih =>
    obtain ⟨here, known⟩ := forall_mem_cons.1 known
    have found : m.portNum ≠ 0xff := by
      rintro unknown
      rw [unknown] at here
      exact absurd here (by decide)
    have wired : b.wirelessPortNum ≠ some m.portNum := by
      intro number
      rw [wireless _ number] at here
      exact absurd here (by decide)
    have small : m.portNum.toUInt32.toNat < 32 := by
      exact Nat.lt_of_le_of_lt (UInt8.le_iff_toNat_le.1 here) (by decide)
    rw [newPortmap, if_neg found, if_neg wired, ih known, UInt32.toNat_or, Nat.testBit_or, testBit_one_shift small,
      UInt8.toNat_toUInt32, any_cons, Bool.or_assoc]

theorem newPortmap_of_unknown (unknown : ∃ m ∈ members, m.portNum = 0xff)
    (map : UInt32) : newPortmap b members map = b.unknownMap := by
  induction members generalizing map with
  | nil => simp at unknown
  | cons m rest ih =>
    by_cases here : m.portNum = 0xff
    · rw [newPortmap, if_pos here]
    · have later : ∃ m ∈ rest, m.portNum = 0xff := by simpa [here] using unknown
      rw [newPortmap, if_neg here]
      split <;> exact ih later _

/-- **The port map has the port of every member whose port is known exactly if all are known or the
fixed map has them.** -/
theorem port_map_covers_iff (b : Board) (wireless : b.Wireless) (ops : List Op) (lookups : ∀ op ∈ ops, op.LookedUp) :
    ∀ e ∈ reached b ops,
      ((∀ m ∈ e.members, m.portNum ≠ 0xff → portBit e.portMap m.portNum) ↔
        (∀ m ∈ e.members, m.portNum ≠ 0xff) ∨
        ∀ m ∈ e.members, m.portNum ≠ 0xff → portBit b.unknownMap m.portNum) := by
  intro e inside
  have mapped := ((reached_sound b ops).entries e inside).mapped
  have ports := ports_reached b ops lookups e inside
  by_cases known : ∀ m ∈ e.members, m.portNum ≠ 0xff
  · refine iff_of_true (fun m member _ => ?_) (.inl known)
    have below : ∀ m ∈ e.members, m.portNum ≤ 30 := by
      intro m member
      have found := ports m member
      simpa [lookedUp, known m member] using found
    rw [portBit, mapped, newPortmap_testBit wireless below, Bool.or_eq_true, List.any_eq_true]
    exact .inr ⟨m, member, by simp⟩
  · have unknown : ∃ m ∈ e.members, m.portNum = 0xff := by simpa using known
    rw [mapped, newPortmap_of_unknown unknown, or_iff_right known]

/-- A host on port 0 has joined, and one whose port is not known. -/
def oneUnknown : List Op :=
  [.insertMulticastIp 0xef010203 0xc0a80002 0, .insertMulticastIp 0xef010203 0xc0a80003 0xff]

theorem known_port_covered : ∃ e ∈ reached ⟨true, 0x5e, some 0x7f⟩ (oneUnknown.take 1),
      ∀ m ∈ e.members, m.portNum ≠ 0xff → portBit e.portMap m.portNum := by
  have known : ∀ e ∈ reached ⟨true, 0x5e, some 0x7f⟩ (oneUnknown.take 1), ∀ m ∈ e.members, m.portNum ≠ 0xff := by
    decide +kernel
  obtain ⟨e, inside⟩ := exists_mem_of_ne_nil (reached ⟨true, 0x5e, some 0x7f⟩ (oneUnknown.take 1)) (by decide +kernel)
  have covers := port_map_covers_iff ⟨true, 0x5e, some 0x7f⟩ (fun _ number => (Option.some.inj number).symm)
    (oneUnknown.take 1) (by decide) e inside
  exact ⟨e, inside, covers.2 (.inl (known e inside))⟩

/-- The map 0x5e does not have port 0, and the first host is cut off. -/
theorem unknown_port_cuts_off : (∀ op ∈ oneUnknown, op.LookedUp) ∧
    (reached ⟨true, 0x5e, some 0x7f⟩ (oneUnknown.take 1)).map (fun e => (e.portMap, portBit e.portMap 0)) = [(0x1, true)] ∧
    (reached ⟨true, 0x5e, some 0x7f⟩ oneUnknown).map (fun e => (e.portMap, e.members.map Member.portNum,
      portBit e.portMap 0)) = [(0x5e, [0xff, 0], false)] := by
  decide +kernel

end RouterApps.Igmpproxy
