/-
# Salsa2.Clean -- what a run of the proxy leaves in the switch

What matters of both tables is which groups they hold (`Groups`).  An update acts on these sets
alone (`Groups.update`), whatever slots the tables use, and the tables follow it
(`updateMacTable_rel`).

`switch_fini` asks to remove the groups of the proxy's table with bit 7 of the index in the place
of bit 15, by which the driver registers them once more.  Only the group of all hosts goes
away.  So the switch is left clean exactly by runs that have removed all their other groups
before (`left_clean_iff`).

The driver has no slot for a 65th group.  It is not asked for one as long as it holds what the
proxy holds.  It holds more after a run that was not clean, and in a run with a port map that the
shift by one bit makes 0: the proxy's slot counts as free, but the group was registered.
-/
import RouterApps.Salsa2.Switch

namespace RouterApps.Salsa2

open CLib Theory List Option Function KernelGroup
open Theory.Slots

/-! ## Which groups are held -/

/-- The groups that have a port in the proxy's table, and those the driver has registered. -/
structure Groups where
  active : Finset (Block 6)
  registered : Finset (Block 6)
deriving DecidableEq

/-- A table that holds these groups has a slot for this one. -/
def Room (macs : Finset (Block 6)) (mac : Block 6) : Prop := mac ∈ macs ∨ macs.card < maxMgroup

instance (macs : Finset (Block 6)) (mac : Block 6) : Decidable (Room macs mac) :=
  inferInstanceAs (Decidable (_ ∨ _))

/-- An update for which the proxy has no slot is dropped; one for which the driver has none
leaves its table. -/
def Groups.update (g : Groups) (u : Update) : Option Groups :=
  let mac := u.entry.mac
  if Room g.active mac then
    if Room g.registered mac then
      some
        { active := if u.entry.switchMap u.igmpRouterPort = 0 then g.active.erase mac else insert mac g.active
          registered := if u.entry.portMap = 0 then g.registered.erase mac else insert mac g.registered }
    else none
  else some g

/-- 01:00:5e:00:00:01 -/
def allHostsMac : Block 6 := (allHosts 0).mac

/-- The groups that the updates of a run leave, if the driver had a slot for each. -/
def Run.groups (r : Run) : Option Groups := replay Groups.update r.updates ⟨{allHostsMac}, {allHostsMac}⟩

/-- The driver had a slot for each update, and every group but that of all hosts was removed. -/
def Run.Balanced (r : Run) : Prop := ∃ g, r.groups = some g ∧ g.registered ⊆ {allHostsMac}

/-! ## The driver's table -/

theorem isGroup_zero : isGroup (Block.zero 6) = false := by decide

variable {slots : List Mgroup} {macs : Finset (Block 6)} (entry : Group)

theorem isGroup_mac : isGroup entry.mac = true := by simp [isGroup, Group.mac]

theorem ne_zero_of_isGroup {mac : Block 6} (group : isGroup mac = true) : mac ≠ Block.zero 6 := by
  rintro rfl
  cases group

structure KernelTable.Holds (t : KernelTable) (macs : Finset (Block 6)) : Prop where
  kept : Kept mac free (Block.zero 6) t.list
  blanked : ∀ g ∈ t.list, g.free = true → g.mac = Block.zero 6
  registered : held mac free t.list = macs

theorem KernelTable.holds_zero : KernelTable.Holds (SlotArray.all maxMgroup zero) ∅ where
  kept := kept_replicate _ (by decide) rfl
  blanked := by
    intro g inside _
    rw [eq_of_mem_replicate inside]
    rfl
  registered := held_replicate _ (by decide)

section

variable {t : KernelTable} {mac : Block 6}

variable (holds : t.Holds macs)

include holds

theorem KernelTable.Holds.index_eq_none_iff (mac : Block 6) : t.getMgroupIndex mac = none ↔ ¬Room macs mac := by
  unfold KernelTable.getMgroupIndex
  rw [holds.kept.slotFor_eq_none_iff mac, holds.registered, t.size, Room, not_or, Nat.not_lt]

/-- A write to the slot for a group. -/
theorem KernelTable.Holds.set (group : isGroup mac = true) {i : Nat}
    (found : t.getMgroupIndex mac = some i) {g : KernelGroup} (own : g.free = false → g.mac = mac)
    (blanked : g.free = true → g.mac = Block.zero 6) :
    KernelTable.Holds (SlotArray.set t i g) (if g.free then macs.erase mac else insert mac macs) := by
  have real := ne_zero_of_isGroup group
  have named : g.mac = mac ∨ g.mac = Block.zero 6 := by
    cases free : g.free with
    | false => exact .inl (own free)
    | true => exact .inr (blanked free)
  refine ⟨holds.kept.set real found named own, ?_, ?_⟩
  · intro g' inside unused
    rcases mem_or_eq_of_mem_set inside with old | rfl
    · exact holds.blanked g' old unused
    · exact blanked unused
  · rw [← holds.registered]
    exact holds.kept.held_set real found own

theorem registMac_rel (group : isGroup mac = true) (port : UInt16) (named : port &&& 0x8000 = 0 → port &&& 0x7fff ≠ 0) :
    Option.Rel KernelTable.Holds (registMac mac port t)
      (if Room macs mac then some (if port &&& 0x8000 = 0 then insert mac macs else macs.erase mac) else none) := by
  rcases found : t.getMgroupIndex mac with _ | i
  · rw [if_neg ((holds.index_eq_none_iff mac).1 found)]
    simp only [registMac, group, found, map_none, ite_self]
    exact .none
  · have room : Room macs mac := by
      by_contra full
      rw [(holds.index_eq_none_iff mac).2 full] at found
      cases found
    rw [if_pos room]
    simp only [registMac, group, found]
    by_cases adds : port &&& 0x8000 = 0
    · rw [if_neg (not_not.2 adds), if_pos adds]
      have used : free ⟨mac, port &&& 0x7fff⟩ = false := decide_eq_false (named adds)
      have put := holds.set group found (g := ⟨mac, port &&& 0x7fff⟩) (fun _ => rfl) (by simp [used])
      rw [used] at put
      exact .some put
    · rw [if_pos adds, if_neg adds]
      have unused : free zero = true := by decide
      have put := holds.set group found (g := zero) (by simp [unused]) fun _ => rfl
      exact .some put

end

/-! ## The registers -/

/-- A register other than 0 has the port map of its slot; `slots` are those from `first` on. -/
def Written (slots : List Mgroup) (first : Nat) (registers : Nat → Option UInt32) : Prop :=
  ∀ reg value, registers reg = some value →
    value = 0 ∨ ∃ j slot, slots[j]? = some slot ∧ reg = groupReg (first + j) ∧ value = slot.portmap

variable {registers : Nat → Option UInt32} {midx : Nat}

theorem Written.set (written : Written slots 0 registers) (bound : midx < slots.length) (slot : Mgroup) :
    Written (slots.set midx slot) 0 (update registers (groupReg midx) (some slot.portmap)) := by
  intro reg value now
  by_cases own : reg = groupReg midx
  · rw [own, update_self] at now
    refine .inr ⟨midx, slot, getElem?_set_self bound, by rw [own, Nat.zero_add], ?_⟩
    exact (some.inj now).symm
  · rw [update_of_ne own] at now
    rcases written reg value now with zero | ⟨j, old, at', rfl, same⟩
    · exact .inl zero
    · refine .inr ⟨j, old, ?_, rfl, same⟩
      rw [getElem?_set_ne, at']
      rintro rfl
      exact own (by rw [Nat.zero_add])

variable {first : Nat}

/-- A turn of the loop of `switch_fini` settles one register. -/
theorem Written.tail {slot : Mgroup} {rest : List Mgroup}
    (written : Written (slot :: rest) first registers)
    (settled : ∀ value, registers (groupReg first) = some value → value = slot.portmap → value = 0) :
    Written rest (first + 1) registers := by
  intro reg value now
  rcases written reg value now with zero | ⟨j, old, at', rfl, same⟩
  · exact .inl zero
  · cases j with
    | zero =>
      obtain rfl := some.inj at'
      exact .inl (settled value now same)
    | succ j => exact .inr ⟨j, old, at', by rw [Nat.add_right_comm, Nat.add_assoc], same⟩

theorem Written.clear (written : Written slots first registers) (cleared : Nat) :
    Written slots first (update registers cleared (some 0)) := by
  intro reg value now
  by_cases own : reg = cleared
  · rw [own, update_self] at now
    exact .inl (some.inj now).symm
  · rw [update_of_ne own] at now
    exact written reg value now

/-! ## One update -/

structure Switch.Shows (s : Switch) (g : Groups) : Prop where
  kept : Kept Mgroup.mac Mgroup.free (Block.zero 6) s.mgroupTable.list
  active : held Mgroup.mac Mgroup.free s.mgroupTable.list = g.active
  kernel : s.kernel.Holds g.registered
  within : g.active ⊆ g.registered
  groups : ∀ mac ∈ g.registered, isGroup mac = true
  registers : Written s.mgroupTable.list 0 s.registers

theorem mgroupPort_bits : ∀ midx < maxMgroup, mgroupPort midx &&& 0x8000 = 0 ∧ mgroupPort midx &&& 0x7fff ≠ 0 ∧
    (mgroupPort midx ||| 0x8000) &&& 0x8000 ≠ 0 ∧
    (mgroupPort midx ||| 0x80) &&& 0x8000 = 0 ∧ (mgroupPort midx ||| 0x80) &&& 0x7fff ≠ 0 := by
  decide +kernel

/-- What `updateMacTable` writes to the proxy's table. -/
def Group.slot (entry : Group) (igmpRouterPort : Int) : Mgroup :=
  if entry.portMap = 0 then Mgroup.zero else ⟨entry.mac, entry.switchMap igmpRouterPort⟩

theorem Group.slot_portmap (port : Int) : (entry.slot port).portmap = entry.switchMap port := by
  unfold Group.slot
  split
  · rename_i none
    simp [Mgroup.zero, Group.switchMap, none]
  · rfl

theorem Group.slot_mac (port : Int) : (entry.slot port).mac = entry.mac ∨ (entry.slot port).mac = Block.zero 6 := by
  unfold Group.slot
  split
  · exact .inr rfl
  · exact .inl rfl

theorem Group.slot_mac_of_used (port : Int) (used : (entry.slot port).free = false) :
    (entry.slot port).mac = entry.mac := by
  revert used
  unfold Group.slot
  split
  · intro used
    cases used
  · intro _
    rfl

/-- The index of the driver's function: bit 15 is set to remove. -/
def Group.port (entry : Group) (midx : Nat) : UInt16 :=
  if entry.portMap = 0 then mgroupPort midx ||| 0x8000 else mgroupPort midx

variable {entry : Group} {port : Int} {s : Switch}

theorem updateMacTable_of_index (found : s.mgroupTable.getMgroupIndex entry.mac = some midx) :
    updateMacTable entry port s = (registMac entry.mac (entry.port midx) s.kernel).map fun kernel =>
      ⟨s.mgroupTable.set midx (entry.slot port), kernel,
        update s.registers (groupReg midx) (some (entry.switchMap port))⟩ := by
  simp only [updateMacTable, found]
  by_cases removes : entry.portMap = 0
  · simp only [removes, Group.port, Group.slot, if_true, Switch.registMac, Switch.setSlot]
    cases registMac entry.mac (mgroupPort midx ||| 0x8000) s.kernel <;> rfl
  · simp only [removes, ne_eq, Group.port, Group.slot, if_false, Switch.registMac, Switch.setSlot]
    cases registMac entry.mac (mgroupPort midx) s.kernel <;> rfl

variable {g : Groups}

section

variable (matching : s.Shows g)

include matching

theorem Switch.Shows.index_eq_none_iff (mac : Block 6) :
    s.mgroupTable.getMgroupIndex mac = none ↔ ¬Room g.active mac := by
  unfold MgroupTable.getMgroupIndex
  rw [matching.kept.slotFor_eq_none_iff mac, matching.active, s.mgroupTable.size, Room, not_or, Nat.not_lt]

theorem Switch.Shows.index_lt
    (found : s.mgroupTable.getMgroupIndex entry.mac = some midx) : midx < s.mgroupTable.list.length := by
  have real := ne_zero_of_isGroup (isGroup_mac entry)
  obtain ⟨before, a, after, split, rfl, -⟩ := matching.kept.slotFor_split real found
  rw [split, length_append, length_cons]
  omega

/-- The switch after an update holds the groups after it. -/
theorem Switch.Shows.written (found : s.mgroupTable.getMgroupIndex entry.mac = some midx) {kernel : KernelTable}
    (registered : kernel.Holds
      (if entry.portMap = 0 then g.registered.erase entry.mac else insert entry.mac g.registered)) :
    Switch.Shows
      ⟨s.mgroupTable.set midx (entry.slot port), kernel,
        update s.registers (groupReg midx) (some (entry.switchMap port))⟩
      { active := if entry.switchMap port = 0 then g.active.erase entry.mac else insert entry.mac g.active
        registered := if entry.portMap = 0 then g.registered.erase entry.mac else insert entry.mac g.registered } := by
  have real := ne_zero_of_isGroup (isGroup_mac entry)
  have named := entry.slot_mac_of_used port
  have freed : (entry.slot port).free = decide (entry.switchMap port = 0) := by
    rw [Mgroup.free, entry.slot_portmap]
  constructor
  case kept => exact matching.kept.set real found (entry.slot_mac port) named
  case active =>
    have put := matching.kept.held_set real found named
    simp only [freed, decide_eq_true_eq, matching.active] at put
    exact put
  case kernel => exact registered
  case within =>
    by_cases removes : entry.portMap = 0
    · have none : entry.switchMap port = 0 := by simp [Group.switchMap, removes]
      simp only [removes, none]
      exact Finset.erase_subset_erase _ matching.within
    · split
      · exact (Finset.erase_subset _ _).trans (matching.within.trans (Finset.subset_insert _ _))
      · exact Finset.insert_subset_insert _ matching.within
  case groups =>
    intro mac inside
    simp only at inside
    split at inside
    · exact matching.groups mac (Finset.mem_of_mem_erase inside)
    · rcases Finset.mem_insert.1 inside with rfl | old
      · exact isGroup_mac entry
      · exact matching.groups mac old
  case registers =>
    have put := matching.registers.set (matching.index_lt found) (entry.slot port)
    rw [entry.slot_portmap] at put
    exact put

/-- **The tables follow the sets of groups**, and the driver leaves its table exactly where these
say that it has no slot. -/
theorem updateMacTable_rel (u : Update) : Option.Rel Switch.Shows (u.apply s) (g.update u) := by
  unfold Update.apply Groups.update
  rcases found : s.mgroupTable.getMgroupIndex u.entry.mac with _ | midx
  · simp only [updateMacTable, found, (matching.index_eq_none_iff _).1 found]
    exact .some matching
  · have room : Room g.active u.entry.mac := by
      by_contra full
      rw [(matching.index_eq_none_iff _).2 full] at found
      cases found
    have below : midx < maxMgroup := by
      have bound := matching.index_lt found
      rwa [s.mgroupTable.size] at bound
    obtain ⟨adds, named, removes, -⟩ := mgroupPort_bits midx below
    have port : u.entry.port midx &&& 0x8000 = 0 ↔ u.entry.portMap ≠ 0 := by
      unfold Group.port
      split <;> simp [*]
    have registered := registMac_rel matching.kernel (isGroup_mac u.entry) (u.entry.port midx)
      (by
        intro added
        rw [Group.port, if_neg (port.1 added)]
        exact named)
    simp only [port, ite_not] at registered
    rw [updateMacTable_of_index found, if_pos room]
    generalize registMac u.entry.mac (u.entry.port midx) s.kernel = result at registered
    by_cases fits : Room g.registered u.entry.mac
    · rw [if_pos fits] at registered ⊢
      cases registered with
      | some holds => exact .some (matching.written found holds)
    · rw [if_neg fits] at registered ⊢
      cases registered
      exact .none

end

/-! ## The start and the end of a run -/

/-- The driver holds no group and no register has a port. -/
structure Switch.Ready (s : Switch) : Prop where
  kernel : s.kernel.Holds ∅
  registers : ∀ reg value, s.registers reg = some value → value = 0

theorem fresh_ready (table : MgroupTable) : (fresh table).Ready where
  kernel := KernelTable.holds_zero
  registers := by
    intro reg value now
    cases now

theorem switchMap_allHosts (port : Int) : (allHosts 0x1ffffff).switchMap port ≠ 0 := by
  have ports : (allHosts 0x1ffffff).portMap <<< 1 ≠ 0 := by decide
  intro none
  exact ports (UInt32.or_eq_zero_iff.1 none).1

theorem switchInit_shows (ready : s.Ready) (port : Int) :
    ∃ s', switchInit port s = some s' ∧ s'.Shows ⟨{allHostsMac}, {allHostsMac}⟩ := by
  have empty : Switch.Shows { s with mgroupTable := SlotArray.all maxMgroup Mgroup.zero } ⟨∅, ∅⟩ :=
    { kept := kept_replicate _ (by decide) rfl
      active := held_replicate _ (by decide)
      kernel := ready.kernel
      within := Finset.Subset.refl _
      groups := by simp
      registers := fun reg value now => .inl (ready.registers reg value now) }
  have first := updateMacTable_rel empty ⟨allHosts 0x1ffffff, port⟩
  have added : Groups.update ⟨∅, ∅⟩ ⟨allHosts 0x1ffffff, port⟩ = some ⟨{allHostsMac}, {allHostsMac}⟩ := by
    simp only [Groups.update, switchMap_allHosts port]
    rfl
  rw [added] at first
  unfold switchInit
  unfold Update.apply at first
  generalize updateMacTable _ _ _ = result at first ⊢
  cases first with
  | some matching => exact ⟨_, rfl, matching⟩

/-- The loop of `switch_fini` registers once more what is registered and clears the registers. -/
theorem finiLoop_spec (groups : ∀ mac ∈ macs, isGroup mac = true)
    (rest : List Mgroup) (midx : Nat) (s : Switch) (bound : midx + rest.length ≤ maxMgroup)
    (inside : ∀ slot ∈ rest, slot.portmap ≠ 0 → slot.mac ∈ macs) (holds : s.kernel.Holds macs)
    (written : Written rest midx s.registers) :
    ∃ s', finiLoop rest midx s = some s' ∧ s'.mgroupTable = s.mgroupTable ∧ s'.kernel.Holds macs ∧
      ∀ reg value, s'.registers reg = some value → value = 0 := by
  induction rest generalizing midx s with
  | nil =>
    refine ⟨s, rfl, rfl, holds, fun reg value now => ?_⟩
    rcases written reg value now with zero | ⟨j, slot, at', -⟩
    · exact zero
    · cases at'
  | cons slot rest ih =>
    obtain ⟨here, inside⟩ := forall_mem_cons.1 inside
    rw [length_cons] at bound
    by_cases used : slot.portmap ≠ 0
    · obtain ⟨-, -, -, adds, named⟩ := mgroupPort_bits midx (by omega)
      have known := here used
      have room : Room macs slot.mac := .inl known
      have again := registMac_rel holds (groups _ known) (mgroupPort midx ||| 0x80) fun _ => named
      rw [if_pos room, if_pos adds, Finset.insert_eq_of_mem known] at again
      simp only [finiLoop, finiSlot, if_pos used, Switch.registMac]
      generalize registMac slot.mac (mgroupPort midx ||| 0x80) s.kernel = result at again ⊢
      cases again with
      | some holds =>
        rename_i kernel
        refine ih (midx + 1) (Switch.writeRegister { s with kernel := kernel } (groupReg midx) 0)
          (by omega) inside holds ?_
        refine (written.clear (groupReg midx)).tail fun value now _ => ?_
        rw [update_self] at now
        exact (some.inj now).symm
    · rw [finiLoop, finiSlot, if_neg used]
      refine ih (midx + 1) s (by omega) inside holds (written.tail fun value _ same => ?_)
      exact same.trans (not_not.1 used)

theorem registers_of_removal {s' : Switch} (removes : entry.portMap = 0)
    (cleared : ∀ reg value, s.registers reg = some value → value = 0)
    (updated : updateMacTable entry port s = some s') : ∀ reg value, s'.registers reg = some value → value = 0 := by
  intro reg value now
  rcases found : s.mgroupTable.getMgroupIndex entry.mac with _ | midx
  · simp only [updateMacTable, found, some.injEq] at updated
    subst updated
    exact cleared reg value now
  · rw [updateMacTable_of_index found] at updated
    obtain ⟨kernel, -, rfl⟩ := map_eq_some_iff.1 updated
    have none : entry.switchMap port = 0 := by simp [Group.switchMap, removes]
    simp only [none] at now
    by_cases own : reg = groupReg midx
    · rw [own, update_self] at now
      exact (some.inj now).symm
    · rw [update_of_ne own] at now
      exact cleared reg value now

theorem switchFini_rel (matching : s.Shows g) (port : Int) :
    Option.Rel (fun s g => s.Shows g ∧ ∀ reg value, s.registers reg = some value → value = 0)
      (switchFini port s) (g.update ⟨allHosts 0, port⟩) := by
  have inside : ∀ slot ∈ s.mgroupTable.list, slot.portmap ≠ 0 → slot.mac ∈ g.registered := by
    intro slot listed used
    refine matching.within ?_
    rw [← matching.active, mem_held]
    exact ⟨slot, listed, decide_eq_false used, rfl⟩
  obtain ⟨s₁, looped, table, holds, cleared⟩ := finiLoop_spec matching.groups s.mgroupTable.list 0 s
    (by rw [s.mgroupTable.size, Nat.zero_add]) inside matching.kernel matching.registers
  have still : s₁.Shows g :=
    { kept := by rw [table]; exact matching.kept
      active := by rw [table]; exact matching.active
      kernel := holds
      within := matching.within
      groups := matching.groups
      registers := fun reg value now => .inl (cleared reg value now) }
  have last := updateMacTable_rel still ⟨allHosts 0, port⟩
  unfold switchFini
  rw [looped, bind_some]
  unfold Update.apply at last
  have stay : ∀ s', updateMacTable (allHosts 0) port s₁ = some s' →
      ∀ reg value, s'.registers reg = some value → value = 0 :=
    fun _ updated => registers_of_removal rfl cleared updated
  generalize updateMacTable _ _ _ = result at last stay ⊢
  generalize Groups.update _ _ = groups' at last ⊢
  cases last with
  | some holds => exact .some ⟨holds, stay _ rfl⟩
  | none => exact .none

theorem KernelTable.Holds.eq_empty_iff {t : KernelTable} (holds : t.Holds macs)
    (groups : ∀ mac ∈ macs, isGroup mac = true) : macs = ∅ ↔ ∀ g ∈ t.list, isGroup g.mac = false := by
  constructor
  · rintro rfl g inside
    cases unused : g.free with
    | true => rw [holds.blanked g inside unused, isGroup_zero]
    | false =>
      have listed : g.mac ∈ held mac free t.list := mem_held.2 ⟨g, inside, unused, rfl⟩
      rw [holds.registered] at listed
      exact absurd listed (Finset.notMem_empty _)
  · intro others
    refine Finset.eq_empty_of_forall_notMem fun mac inside => ?_
    have group := groups mac inside
    rw [← holds.registered, mem_held] at inside
    obtain ⟨g, listed, -, rfl⟩ := inside
    rw [others g listed] at group
    cases group

/-- The removal of all hosts leaves no group exactly when there was no other. -/
theorem update_allHosts_iff (within : g.active ⊆ g.registered) (port : Int) :
    (∃ g', g.update ⟨allHosts 0, port⟩ = some g' ∧ g'.registered = ∅) ↔ g.registered ⊆ {allHostsMac} := by
  have removed : (allHosts 0).portMap = 0 := rfl
  have mac : (allHosts 0).mac = allHostsMac := rfl
  simp only [Groups.update, removed, mac, if_true]
  constructor
  · rintro ⟨g', updated, none⟩
    split at updated
    · split at updated
      · obtain rfl := some.inj updated
        exact Finset.subset_singleton_iff.2 ((Finset.erase_eq_empty_iff _ _).1 none)
      · cases updated
    · obtain rfl := some.inj updated
      rw [none]
      exact Finset.empty_subset _
  · intro only
    have few : ∀ macs : Finset (Block 6), macs ⊆ {allHostsMac} → Room macs allHostsMac := by
      intro macs sub
      have card := Finset.card_le_card sub
      exact .inr (lt_of_le_of_lt card (by decide))
    rw [if_pos (few _ (within.trans only)), if_pos (few _ only)]
    refine ⟨_, rfl, ?_⟩
    rw [Finset.erase_eq_empty_iff]
    exact Finset.subset_singleton_iff.1 only

/-! ## Runs -/

/-- The driver is left without a slot, or the switch is clean at the end exactly if the run is
balanced, and then the next run starts as this one did. -/
theorem Run.exec_cases (ready : s.Ready) (r : Run) : (r.exec s = none ∧ ¬r.Balanced) ∨
      ∃ s', r.exec s = some s' ∧ (s'.Clean ↔ r.Balanced) ∧ (s'.Clean → s'.Ready) := by
  obtain ⟨s₁, started, matching⟩ := switchInit_shows ready r.initPort
  have updated := replay_rel (fun s g u holds => updateMacTable_rel holds u) r.updates matching
  unfold Run.exec Run.Balanced Run.groups
  simp only [started, bind_eq_bind, bind_some]
  generalize replay (fun s u => Update.apply u s) r.updates s₁ = middle at updated ⊢
  generalize replay Groups.update r.updates _ = groups at updated ⊢
  cases updated with
  | none => simp
  | some holds =>
    rename_i s₂ g
    have last := switchFini_rel holds r.finiPort
    simp only [bind_some, some.injEq, exists_eq_left']
    rw [← update_allHosts_iff holds.within r.finiPort]
    generalize switchFini r.finiPort s₂ = result at last ⊢
    generalize g.update ⟨allHosts 0, r.finiPort⟩ = left at last ⊢
    cases last with
    | none => simp
    | some both =>
      obtain ⟨shown, cleared⟩ := both
      have empty := shown.kernel.eq_empty_iff shown.groups
      refine .inr ⟨_, rfl, ?_, fun clean => ⟨?_, cleared⟩⟩
      · simp only [some.injEq, exists_eq_left']
        exact ⟨fun clean => empty.2 clean.kernel, fun none => ⟨empty.1 none, cleared⟩⟩
      · rw [← empty.2 clean.kernel]
        exact shown.kernel

theorem leftClean_of_ready (ready : s.Ready) (runs : List Run) : LeftClean runs s ↔ ∀ r ∈ runs, r.Balanced := by
  induction runs generalizing s with
  | nil => simp [LeftClean]
  | cons r rest ih =>
    rw [forall_mem_cons]
    rcases r.exec_cases ready with ⟨outside, unbalanced⟩ | ⟨s', ran, clean, next⟩
    · simp [LeftClean, outside, unbalanced]
    · simp only [LeftClean, ran, some.injEq, exists_eq_left']
      constructor
      · rintro ⟨left, later⟩
        exact ⟨clean.1 left, (ih (next left)).1 later⟩
      · rintro ⟨balanced, later⟩
        have left := clean.2 balanced
        exact ⟨left, (ih (next left)).2 later⟩

/-- **The switch is left clean, and the driver stays inside its table, exactly by runs that have
each removed their groups before they end** and never needed a 65th slot. -/
theorem left_clean_iff (table : MgroupTable) (runs : List Run) :
    LeftClean runs (fresh table) ↔ ∀ r ∈ runs, r.Balanced :=
  leftClean_of_ready (fresh_ready table) runs

/-- A run that removes none of its groups, `n` of them from `a3` on. -/
def leaving (a3 n : Nat) : Run :=
  ⟨-1, (List.range n).map fun i => ⟨⟨0x01, 0x02, (a3 + i).toUInt8, 0x2⟩, -1⟩, -1⟩

def zeroTable : MgroupTable := SlotArray.all maxMgroup Mgroup.zero

/-- A group is still in the driver's table after `switch_fini`.  With 32 groups left behind, the
32nd group of the next run has no slot. -/
theorem group_left_in_switch : ¬LeftClean [leaving 0 1] (fresh zeroTable) ∧
    ((leaving 0 1).exec (fresh zeroTable)).map (fun s => s.kernel.list.filter fun g => g.vidx ≠ 0) =
      some [⟨⟨[0x01, 0x00, 0x5e, 0x01, 0x02, 0x00], rfl⟩, 0x181⟩] ∧
    ((leaving 0 32).exec (fresh zeroTable)).isSome = true ∧
    ((leaving 0 32).exec (fresh zeroTable)).bind (leaving 32 32).exec = none := by
  have full : ((leaving 0 32).exec (fresh zeroTable)).map (fun s => ((leaving 32 32).exec s).isNone) = some true := by
    decide +kernel
  obtain ⟨later, ran, outside⟩ := map_eq_some_iff.1 full
  have kept : ((leaving 0 1).exec (fresh zeroTable)).map (fun s => s.kernel.list.filter fun g => g.vidx ≠ 0) =
      some [⟨⟨[0x01, 0x00, 0x5e, 0x01, 0x02, 0x00], rfl⟩, 0x181⟩] := by
    decide +kernel
  refine ⟨?_, kept, by rw [ran, isSome_some], ?_⟩
  · rintro ⟨s', ended, clean, -⟩
    rw [ended, map_some, Option.some.injEq] at kept
    have inside := (mem_filter.1 (kept ▸ mem_singleton_self _)).1
    exact absurd (clean.kernel _ inside) (by decide)
  · rw [ran, bind_some]
    exact isNone_iff_eq_none.1 outside

/-! ## Port maps that the shift leaves -/

/-- The groups that both tables hold after an update, if they held the same before it. -/
def track (macs : Finset (Block 6)) (u : Update) : Finset (Block 6) :=
  if Room macs u.entry.mac then
    if u.entry.portMap = 0 then macs.erase u.entry.mac else insert u.entry.mac macs
  else macs

theorem update_of_visible {u : Update} (visible : u.entry.portMap ≠ 0 → u.entry.switchMap u.igmpRouterPort ≠ 0)
    (macs : Finset (Block 6)) : Groups.update ⟨macs, macs⟩ u = some ⟨track macs u, track macs u⟩ := by
  have same : u.entry.switchMap u.igmpRouterPort = 0 ↔ u.entry.portMap = 0 := by
    refine ⟨fun none => ?_, fun none => by simp [Group.switchMap, none]⟩
    by_contra some
    exact visible some none
  by_cases room : Room macs u.entry.mac <;> simp [Groups.update, track, room, same]

end RouterApps.Salsa2
