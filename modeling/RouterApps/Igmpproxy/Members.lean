/-
# Igmpproxy.Members -- who has joined which group behind the switch (mc_switch.c)

The list of groups has one entry for each multicast MAC address.  The address has 23 bits of the
group's 28; the five that are lost are the `a0` of a member, and the entry keeps those of the group
that made it.

A pointer to an entry is its place in the list, as no function here unlinks one, and a pointer to a
member is the host and the lost bits, which no two members of an entry share.  To read a member that
is no longer there is to read it after `free`.

Left out are the file of `write_entry`, the commands to the wireless driver, and the calls of
`updateMacTable`.  What differs between the boards is data (`Board`).
-/
import RouterApps.Igmpproxy.Routes
import RouterApps.Theory.Cursor
import RouterApps.Theory.Table

namespace RouterApps.Igmpproxy

open CLib Theory List
open Theory.Table
open Theory.Cursor (Fault)

/-! ## Data -/

/-- `struct group_member`, without its link and `sent_report`, which nothing reads. -/
structure Member where
  ipAddr : UInt32
  a0 : UInt8
  portNum : UInt8
  hasReport : UInt8
deriving DecidableEq

/-- The host, and which of the groups of the entry it joined. -/
def Member.key (m : Member) : UInt32 × UInt8 := (m.ipAddr, m.a0)

/-- `struct group`, without its link. -/
structure Entry where
  a0 : UInt8
  a1 : UInt8
  a2 : UInt8
  a3 : UInt8
  portMap : UInt32
  members : List Member
deriving DecidableEq

/-- Whether `char` is signed, the ports that are opened for a host whose port is not known, and the
number of the wireless port. -/
structure Board where
  charSigned : Bool
  unknownMap : UInt32
  wirelessPortNum : Option UInt8

/-- The value of a `char`. -/
def Board.charValue (b : Board) (c : UInt8) : Int :=
  if b.charSigned && 128 ≤ c then c.toNat - 256 else c.toNat

/-! ## Addresses -/

/-- `IP_GET_LOST_MAPPING` -/
def lostMapping (mip : UInt32) : UInt8 := ((mip &&& 0x0F800000) >>> 23).toUInt8

def macBits (mip : UInt32) : UInt8 × UInt8 × UInt8 :=
  (((mip &&& 0x007F0000) >>> 16).toUInt8, ((mip &&& 0x0000FF00) >>> 8).toUInt8, (mip &&& 0x000000FF).toUInt8)

def Entry.mac (e : Entry) : UInt8 × UInt8 × UInt8 := (e.a1, e.a2, e.a3)

def ipMulticastA0 (a0 : UInt8) : UInt8 := (a0 >>> 1) ||| 0xE0

def ipMulticastA1 (a0 a1 : UInt8) : UInt8 := ((a0 &&& 0x1) <<< 7) ||| a1

/-- `craft_mip`, in network order. -/
def craftMip (a0 a1 a2 a3 : UInt8) : UInt32 :=
  (ipMulticastA0 a0).toUInt32 ||| ((ipMulticastA1 a0 a1).toUInt32 <<< 8) ||| (a2.toUInt32 <<< 16) |||
    (a3.toUInt32 <<< 24)

variable (m : UInt32)

theorem bits_toNat (mask shift : UInt32) (width : Nat) (inside : shift.toNat < 32) (narrow : width ≤ 8)
    (masks : mask.toNat >>> shift.toNat = 2 ^ width - 1) :
    ((m &&& mask) >>> shift).toUInt8.toNat = m.toNat / 2 ^ shift.toNat % 2 ^ width := by
  have small : 2 ^ width ≤ 2 ^ 8 := Nat.pow_le_pow_right (by decide) narrow
  have below := Nat.mod_lt (m.toNat / 2 ^ shift.toNat) (Nat.two_pow_pos width)
  rw [UInt32.toNat_toUInt8, UInt32.toNat_shiftRight, Nat.mod_eq_of_lt inside, UInt32.toNat_and,
    Nat.shiftRight_and_distrib, masks, Nat.and_two_pow_sub_one_eq_mod, Nat.shiftRight_eq_div_pow]
  exact Nat.mod_eq_of_lt (by omega)

theorem lostMapping_toNat : (lostMapping m).toNat = m.toNat / 8388608 % 32 :=
  bits_toNat m 0x0F800000 23 5 (by decide) (by decide) (by decide)

theorem macBits_toNat : (macBits m).1.toNat = m.toNat / 65536 % 128 ∧
    (macBits m).2.1.toNat = m.toNat / 256 % 256 ∧ (macBits m).2.2.toNat = m.toNat % 256 := by
  refine ⟨bits_toNat m 0x007F0000 16 7 (by decide) (by decide) (by decide),
    bits_toNat m 0x0000FF00 8 8 (by decide) (by decide) (by decide), ?_⟩
  have last := bits_toNat m 0x000000FF 0 8 (by decide) (by decide) (by decide)
  exact last.trans (by simp)

theorem toNat_of_inMulticast {m : UInt32} (multicast : inMulticast m = true) : m.toNat / 268435456 = 14 := by
  have same := congrArg (fun x : UInt32 => x.toNat >>> 28) (of_decide_eq_true multicast)
  simp only [UInt32.toNat_and, Nat.shiftRight_and_distrib] at same
  have top : m.toNat >>> 28 &&& 2 ^ 4 - 1 = 14 := same
  rw [Nat.and_two_pow_sub_one_eq_mod] at top
  have := m.toNat_lt
  omega

theorem ipMulticastA0_toNat {a0 : UInt8} (small : a0 < 32) : (ipMulticastA0 a0).toNat = 224 + a0.toNat / 2 := by
  have all : ∀ n < 32, (ipMulticastA0 (UInt8.ofNat n)).toNat = 224 + n / 2 := by decide
  have := all a0.toNat small
  rwa [UInt8.ofNat_toNat] at this

theorem ipMulticastA1_toNat (a0 : UInt8) {a1 : UInt8} (small : a1 < 128) :
    (ipMulticastA1 a0 a1).toNat = a0.toNat % 2 * 128 + a1.toNat := by
  have low : a1.toNat < 2 ^ 7 := small
  unfold ipMulticastA1
  rw [UInt8.toNat_or, UInt8.toNat_shiftLeft, UInt8.toNat_and]
  have bit : a0.toNat &&& 1 = a0.toNat % 2 := Nat.and_one_is_mod _
  have fits : (a0.toNat % 2) <<< 7 % 256 = (a0.toNat % 2) <<< 7 := by
    omega
  have sum := Nat.shiftLeft_add_eq_or_of_lt low (a0.toNat % 2)
  simp only [UInt8.toNat_ofNat, bit, fits]
  rw [← sum, Nat.shiftLeft_eq]

theorem or_shifts_eq_leWord (x y z w : UInt8) :
    x.toUInt32 ||| (y.toUInt32 <<< 8) ||| (z.toUInt32 <<< 16) ||| (w.toUInt32 <<< 24) = leWord [x, y, z, w] := by
  have hx : x.toNat < 2 ^ 8 := x.toNat_lt
  have hy := y.toNat_lt
  have hz := z.toNat_lt
  have hw := w.toNat_lt
  have join : ∀ {low shift : Nat} high, low < 2 ^ shift → low ||| high <<< shift = high * 2 ^ shift + low := by
    intro low shift high below
    rw [Nat.or_comm, ← Nat.shiftLeft_add_eq_or_of_lt below, Nat.shiftLeft_eq]
  have shift : ∀ (n : UInt8) k, k ≤ 24 → n.toNat <<< k % 2 ^ 32 = n.toNat <<< k := by
    intro n k small
    have := n.toNat_lt
    have power : 2 ^ k ≤ 2 ^ 24 := Nat.pow_le_pow_right (by decide) small
    have := Nat.mul_le_mul (Nat.le_of_lt_succ n.toNat_lt) power
    exact Nat.mod_eq_of_lt (by omega)
  apply UInt32.toNat_inj.1
  simp only [UInt32.toNat_or, UInt32.toNat_shiftLeft, UInt8.toNat_toUInt32, UInt32.reduceToNat,
    shift y 8 (by decide), shift z 16 (by decide), shift w 24 (by decide)]
  rw [join y.toNat hx, join z.toNat (by omega), join w.toNat (by omega)]
  simp only [leWord, UInt32.toNat_ofNat']
  omega

theorem craftMip_eq (a0 a1 a2 a3 : UInt8) :
    craftMip a0 a1 a2 a3 = leWord [ipMulticastA0 a0, ipMulticastA1 a0 a1, a2, a3] :=
  or_shifts_eq_leWord _ _ _ _

/-- Both the bits of the MAC address and the lost ones are those of the group. -/
theorem craftMip_eq_iff {a0 a1 a2 a3 : UInt8} (small0 : a0 < 32) (small1 : a1 < 128) {mc : UInt32}
    (multicast : inMulticast (ntohl mc) = true) :
    mc = craftMip a0 a1 a2 a3 ↔ a0 = lostMapping (ntohl mc) ∧ (a1, a2, a3) = macBits (ntohl mc) := by
  have flip : mc = craftMip a0 a1 a2 a3 ↔ (leBytes (ntohl mc)) = [a3, a2, ipMulticastA1 a0 a1, ipMulticastA0 a0] := by
    rw [craftMip_eq]
    constructor
    · rintro rfl
      rw [ntohl, leBytes_leWord (by simp), leBytes_leWord (by simp)]
      rfl
    · intro bytes
      rw [← ntohl_ntohl mc, ntohl, bytes]
      rfl
  obtain ⟨mac1, mac2, mac3⟩ := macBits_toNat (ntohl mc)
  have lost := lostMapping_toNat (ntohl mc)
  have top := toNat_of_inMulticast multicast
  have first := ipMulticastA0_toNat small0
  have second := ipMulticastA1_toNat a0 small1
  have bound := (ntohl mc).toNat_lt
  have low0 : a0.toNat < 32 := small0
  have low1 : a1.toNat < 128 := small1
  have := a2.toNat_lt
  have := a3.toNat_lt
  rw [flip, Prod.ext_iff, Prod.ext_iff]
  simp only [leBytes, cons.injEq, and_true, ← UInt8.toNat_inj, UInt8.toNat_ofNat']
  omega

/-! ## Joining and leaving -/

def findEntry (mip : UInt32) (groups : List Entry) : Option Entry := groups.find? fun e => e.mac = macBits mip

/-- `build_entry`: there is none for the group of all hosts. -/
def buildEntry (mip : UInt32) : Option Entry :=
  let mac := macBits mip
  if mac = (0, 0, 1) then none else some ⟨lostMapping mip, mac.1, mac.2.1, mac.2.2, 0x0, []⟩

/-- The loop of `update_group_port_map`. -/
def newPortmap (b : Board) : List Member → UInt32 → UInt32
  | [], map => map
  | m :: rest, map =>
    if m.portNum = 0xff then b.unknownMap
    else if b.wirelessPortNum = some m.portNum then newPortmap b rest (map ||| 0x80000000)
    else newPortmap b rest (map ||| (1 <<< m.portNum.toUInt32))

def updateGroupPortMap (b : Board) (e : Entry) : Entry := { e with portMap := newPortmap b e.members 0x0 }

def lookupMember (e : Entry) (mip uip : UInt32) : Option Member :=
  e.members.find? fun m => m.key = (uip, lostMapping mip)

/-- A report of a member that is already there. -/
def Member.renew (port : UInt8) (m : Member) : Member := { m with portNum := port, hasReport := 10 }

/-- `insert_member`; `port` is what `portLookUpByIP` returns. -/
def insertMember (e : Entry) (mip uip : UInt32) (port : UInt8) : Entry :=
  match lookupMember e mip uip with
  | some _ =>
    { e with members := updateFirst (fun m => m.key = (uip, lostMapping mip)) (Member.renew port) e.members }
  | none => { e with members := ⟨uip, lostMapping mip, port, 10⟩ :: e.members }

def insertMulticastIp (b : Board) (mip uip : UInt32) (port : UInt8) (groups : List Entry) : List Entry :=
  match findEntry mip groups with
  | some _ =>
    updateFirst (fun e => e.mac = macBits mip) (fun e => updateGroupPortMap b (insertMember e mip uip port)) groups
  | none =>
    match buildEntry mip with
    | some e => updateGroupPortMap b (insertMember e mip uip port) :: groups
    | none => groups

/-- What `remove_member` does to the entry it finds. -/
def removeFrom (b : Board) (mip uip : UInt32) (e : Entry) : Entry :=
  if e.members = [] then e
  else updateGroupPortMap b { e with members := Cursor.unlink Member.key e.members (uip, lostMapping mip) }

def removeMember (b : Board) (mip uip : UInt32) (groups : List Entry) : List Entry :=
  updateFirst (fun e => e.mac = macBits mip) (removeFrom b mip uip) groups

def Member.age (m : Member) : Member := { m with hasReport := m.hasReport - 1 }

def Entry.age (e : Entry) : Entry := { e with members := e.members.map Member.age }

/-- The queries that `query_specific_members` sends: to whom, and about which group. -/
def Entry.requery (b : Board) (e : Entry) : List (UInt32 × UInt32) :=
  (e.members.filter fun m => b.charValue m.hasReport ≤ 5).map fun m =>
    (htonl m.ipAddr, craftMip m.a0 e.a1 e.a2 e.a3)

def querySpecificMembers (b : Board) (groups : List Entry) : List Entry × List (UInt32 × UInt32) :=
  let groups := groups.map Entry.age
  (groups, groups.flatMap (Entry.requery b))

/-! ## The sweep -/

/-- `*member`, a member of the entry at `pos`. -/
def readMember (groups : List Entry) (pos : Nat) (member : UInt32 × UInt8) : Option Member :=
  groups[pos]?.bind fun e => Cursor.read Member.key e.members member

/-- `member->next`. -/
def nextMember (groups : List Entry) (pos : Nat) (member : UInt32 × UInt8) : Option (UInt32 × UInt8) :=
  groups[pos]?.bind fun e => Cursor.next Member.key e.members member

/-- The inner loop of `sweap_no_report_members`. -/
def sweapMembers (b : Board) (mip : UInt32) (pos : Nat) :
    Nat → Option (UInt32 × UInt8) → List Entry → Except Fault (List Entry)
  | _, none, groups => .ok groups
  | 0, some _, _ => .error .fuel
  | fuel + 1, some member, groups =>
    match readMember groups pos member with
    | none => .error .freed
    | some m =>
      if m.hasReport = 0 then
        let removed := removeMember b mip m.ipAddr groups
        match nextMember groups pos member with
        | some nextBackup => sweapMembers b mip pos fuel (some nextBackup) removed
        | none =>
          match readMember removed pos member with
          | none => .error .freed
          | some _ => sweapMembers b mip pos fuel (nextMember removed pos member) removed
      else sweapMembers b mip pos fuel (nextMember groups pos member) groups

/-- The outer loop, with the number of entries from `pos` on. -/
def sweapEntries (b : Board) (mcIpaddr : UInt32) : Nat → Nat → List Entry → Except Fault (Bool × List Entry)
  | 0, _, groups => .ok (false, groups)
  | left + 1, pos, groups =>
    match groups[pos]? with
    | none => .ok (false, groups)
    | some e =>
      let mip := craftMip e.a0 e.a1 e.a2 e.a3
      if mcIpaddr = mip then do
        let groups ← sweapMembers b (ntohl mip) pos e.members.length (e.members.head?.map Member.key) groups
        if (groups[pos]?.map Entry.members) = some [] then .ok (true, groups)
        else sweapEntries b mcIpaddr left (pos + 1) groups
      else sweapEntries b mcIpaddr left (pos + 1) groups

/-- `sweap_no_report_members`; the group is in network order. -/
def sweapNoReportMembers (b : Board) (mcIpaddr : UInt32) (groups : List Entry) : Except Fault (Bool × List Entry) :=
  sweapEntries b mcIpaddr groups.length 0 groups

/-! ## Reachable lists -/

inductive Op
  | insertMulticastIp (mip uip : UInt32) (port : UInt8)
  | removeMember (mip uip : UInt32)
  | querySpecificMembers

def Op.apply (b : Board) (groups : List Entry) : Op → List Entry
  | .insertMulticastIp mip uip port => Igmpproxy.insertMulticastIp b mip uip port groups
  | .removeMember mip uip => Igmpproxy.removeMember b mip uip groups
  | .querySpecificMembers => (Igmpproxy.querySpecificMembers b groups).1

def reached (b : Board) (ops : List Op) : List Entry := ops.foldl (Op.apply b) []

/-- What holds of an entry between two calls. -/
structure Entry.Sound (b : Board) (e : Entry) : Prop where
  lost : e.a0 < 32
  mac : e.a1 < 128
  apart : (e.members.map Member.key).Nodup
  mapped : e.portMap = newPortmap b e.members 0x0

structure SoundGroups (b : Board) (groups : List Entry) : Prop where
  entries : ∀ e ∈ groups, e.Sound b
  apart : (groups.map Entry.mac).Nodup

section

variable {b : Board} {e : Entry} {groups : List Entry} (mip uip : UInt32) (port : UInt8)

theorem Entry.Sound.withMembers (sound : e.Sound b) {members : List Member} (apart : (members.map Member.key).Nodup) :
    (updateGroupPortMap b { e with members := members }).Sound b :=
  ⟨sound.lost, sound.mac, apart, rfl⟩

theorem insertMember_apart (apart : (e.members.map Member.key).Nodup) :
    ((insertMember e mip uip port).members.map Member.key).Nodup := by
  unfold insertMember
  cases found : lookupMember e mip uip with
  | some m =>
    simp only [map_updateFirst (f := Member.renew port) (g := Member.key) fun _ => rfl]
    exact apart
  | none =>
    refine nodup_cons.2 ⟨fun inside => ?_, apart⟩
    obtain ⟨m, listed, same⟩ := mem_map.1 inside
    have other := find?_eq_none.1 found m listed
    exact other (decide_eq_true same)

theorem insertMember_sound (sound : e.Sound b) : (updateGroupPortMap b (insertMember e mip uip port)).Sound b ∧
      (updateGroupPortMap b (insertMember e mip uip port)).mac = e.mac := by
  have apart := insertMember_apart mip uip port sound.apart
  unfold insertMember at apart ⊢
  split at apart <;> exact ⟨sound.withMembers apart, rfl⟩

theorem removeFrom_sound (sound : e.Sound b) : (removeFrom b mip uip e).Sound b := by
  unfold removeFrom
  split
  · exact sound
  · exact sound.withMembers (sound.apart.sublist (eraseP_sublist.map _))

theorem removeFrom_mac (e : Entry) : (removeFrom b mip uip e).mac = e.mac := by
  unfold removeFrom
  split <;> rfl

theorem buildEntry_sound (built : buildEntry mip = some e) : e.Sound b ∧ e.mac = macBits mip := by
  simp only [buildEntry] at built
  split at built
  · cases built
  · obtain rfl := Option.some.inj built
    refine ⟨⟨?_, ?_, nodup_nil, rfl⟩, rfl⟩
    · have lost := lostMapping_toNat mip
      exact UInt8.lt_iff_toNat_lt.2 (lost ▸ Nat.mod_lt _ (by decide))
    · have mac := (macBits_toNat mip).1
      exact UInt8.lt_iff_toNat_lt.2 (mac ▸ Nat.mod_lt _ (by decide))

section

variable (sound : SoundGroups b groups)

include sound

theorem SoundGroups.updateFirst {p : Entry → Bool} {f : Entry → Entry}
    (entries : ∀ e, e.Sound b → (f e).Sound b) (macs : ∀ e, (f e).mac = e.mac) :
    SoundGroups b (updateFirst p f groups) where
  entries := by
    intro e inside
    rcases mem_updateFirst inside with old | ⟨e', found, rfl⟩
    · exact sound.entries e old
    · exact entries e' (sound.entries e' (mem_of_find?_eq_some found))
  apart := by
    rw [map_updateFirst macs]
    exact sound.apart

theorem insertMulticastIp_sound : SoundGroups b (insertMulticastIp b mip uip port groups) := by
  unfold insertMulticastIp
  cases found : findEntry mip groups with
  | some e =>
    exact sound.updateFirst (fun e holds => (insertMember_sound mip uip port holds).1) fun e => by
      unfold insertMember
      split <;> rfl
  | none =>
    cases built : buildEntry mip with
    | none => exact sound
    | some e =>
      obtain ⟨fresh, mac⟩ := buildEntry_sound mip built
      obtain ⟨holds, same⟩ := insertMember_sound mip uip port fresh
      refine ⟨forall_mem_cons.2 ⟨holds, sound.entries⟩, ?_⟩
      refine nodup_cons.2 ⟨fun inside => ?_, sound.apart⟩
      obtain ⟨e', listed, shared⟩ := mem_map.1 inside
      have other := find?_eq_none.1 found e' listed
      exact other (decide_eq_true (shared.trans (same.trans mac)))

theorem removeMember_sound : SoundGroups b (removeMember b mip uip groups) :=
  sound.updateFirst (fun _ holds => removeFrom_sound mip uip holds) (removeFrom_mac mip uip)

end

theorem newPortmap_age (members : List Member) (map : UInt32) :
    newPortmap b (members.map Member.age) map = newPortmap b members map := by
  induction members generalizing map with
  | nil => rfl
  | cons m rest ih => simp only [map_cons, newPortmap, Member.age, ih]

theorem querySpecificMembers_sound (sound : SoundGroups b groups) : SoundGroups b (querySpecificMembers b groups).1 where
  entries := by
    intro e inside
    obtain ⟨e, listed, rfl⟩ := mem_map.1 inside
    have holds := sound.entries e listed
    refine ⟨holds.lost, holds.mac, ?_, ?_⟩
    · have same : (e.members.map Member.age).map Member.key = e.members.map Member.key := by
        rw [map_map]
        rfl
      exact same ▸ holds.apart
    · exact holds.mapped.trans (newPortmap_age e.members 0x0).symm
  apart := by
    have same : (groups.map Entry.age).map Entry.mac = groups.map Entry.mac := by
      rw [map_map]
      rfl
    exact same ▸ sound.apart

end

theorem reached_sound (b : Board) (ops : List Op) : SoundGroups b (reached b ops) := by
  refine foldlRecOn ops (Op.apply b) ⟨by simp, nodup_nil⟩ ?_
  intro groups sound op _
  cases op with
  | insertMulticastIp mip uip port => exact insertMulticastIp_sound mip uip port sound
  | removeMember mip uip => exact removeMember_sound mip uip sound
  | querySpecificMembers => exact querySpecificMembers_sound sound

end RouterApps.Igmpproxy
