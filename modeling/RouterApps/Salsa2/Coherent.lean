/-
# Salsa2.Coherent -- the two tables of groups within one run

The slots that the proxy and the driver choose for a group need not be the same.  What ties the
tables together is the index that the proxy passes:

* a group that has a port sits in one slot of the proxy, and the driver has that slot as the index
  of its port map (`Logged.Coherent`);
* one update keeps this, also if it removes a group that was never added or finds no slot
  (`Logged.Coherent.update`);
* so the driver always has a slot when the proxy has one (`tables_coherent`).

The tables start empty, and no port map has bit 31, which the shift by one would lose.
-/
import RouterApps.Salsa2.Clean

namespace RouterApps.Salsa2

open CLib Theory List Option Function KernelTable
open Theory.Slots

/-- `get_mgroup_vidx` of the driver. -/
def KernelTable.getMgroupVidx (t : KernelTable) (mac : Block 6) : UInt16 :=
  match t.list.find? fun g => g.mac = mac with
  | some g => g.vidx
  | none => 0

/-! ## Runs with what they wrote -/

/-- The switch, and the last update of each group for which the proxy had a slot. -/
structure Logged where
  switch : Switch
  last : Block 6 → Option Update

/-- An update; one without a slot changes nothing. -/
def Logged.update (l : Logged) (u : Update) : Option Logged :=
  (u.apply l.switch).map fun switch =>
    { switch := switch
      last :=
        if (l.switch.mgroupTable.getMgroupIndex u.entry.mac).isSome then Function.update l.last u.entry.mac (some u)
        else l.last }

/-- Both tables are empty. -/
def Logged.start : Logged := ⟨fresh zeroTable, fun _ => none⟩

/-- The map that the last update of the group left, if it has ports. -/
def Logged.Active (l : Logged) (mac : Block 6) (map : UInt32) : Prop :=
  ∃ u, l.last mac = some u ∧ u.entry.portMap ≠ 0 ∧ map = u.entry.switchMap u.igmpRouterPort

abbrev MgroupTable.Sits (t : MgroupTable) (mac : Block 6) (midx : Nat) (slot : Mgroup) : Prop :=
  Slots.Sits Mgroup.mac Mgroup.free t.list mac midx slot

abbrev KernelTable.Sits (t : KernelTable) (mac : Block 6) (midx : Nat) (g : KernelGroup) : Prop :=
  Slots.Sits KernelGroup.mac KernelGroup.free t.list mac midx g

/-- What ties both tables, the registers and the updates together. -/
structure Logged.Coherent (l : Logged) : Prop where
  shows : ∃ macs, l.switch.Shows ⟨macs, macs⟩
  seated : ∀ mac map, l.Active mac map ↔ ∃ midx, l.switch.mgroupTable.Sits mac midx ⟨mac, map⟩
  driver : ∀ mac vidx, (∃ j, l.switch.kernel.Sits mac j ⟨mac, vidx⟩) ↔
    ∃ midx slot, l.switch.mgroupTable.Sits mac midx slot ∧ vidx = mgroupPort midx
  registers : ∀ mac midx slot, l.switch.mgroupTable.Sits mac midx slot →
    l.switch.registers (groupReg midx) = some slot.portmap

/-! ## One update -/

theorem mgroupPort_index : ∀ midx < maxMgroup, mgroupPort midx &&& 0x7fff = mgroupPort midx ∧
    (mgroupPort midx).toNat = 256 + midx := by
  decide +kernel

variable {j : Nat} {entry : Group}

theorem groupReg_injective {i : Nat} (same : groupReg i = groupReg j) : i = j := by
  unfold groupReg at same
  omega

variable {mac : Block 6} {l : Logged}

theorem registMac_eq_some (group : isGroup mac = true) {port : UInt16} {t t' : KernelTable}
    (done : registMac mac port t = some t') : ∃ j, t.getMgroupIndex mac = some j ∧
      t' = t.set j (if port &&& 0x8000 ≠ 0 then KernelGroup.zero else ⟨mac, port &&& 0x7fff⟩) := by
  simp only [registMac, group, if_true] at done
  split at done
  all_goals
    obtain ⟨j, found, rfl⟩ := map_eq_some_iff.1 done
    exact ⟨j, found, by simp [*]⟩

/-- What an update makes the driver write. -/
def Group.kernelSlot (entry : Group) (midx : Nat) : KernelGroup :=
  if entry.portMap = 0 then KernelGroup.zero else ⟨entry.mac, mgroupPort midx⟩

variable {macs : Finset (Block 6)}

/-- **The update of a coherent switch**: nothing, or one slot of each table and one register. -/
theorem apply_cases {s s' : Switch} (shows : s.Shows ⟨macs, macs⟩) {u : Update} (done : u.apply s = some s') :
    (s.mgroupTable.getMgroupIndex u.entry.mac = none ∧ s' = s) ∨
    ∃ midx j, s.mgroupTable.getMgroupIndex u.entry.mac = some midx ∧ midx < maxMgroup ∧
      s.kernel.getMgroupIndex u.entry.mac = some j ∧
      s' = ⟨s.mgroupTable.set midx (u.entry.slot u.igmpRouterPort), s.kernel.set j (u.entry.kernelSlot midx),
        Function.update s.registers (groupReg midx) (some (u.entry.switchMap u.igmpRouterPort))⟩ := by
  unfold Update.apply at done
  rcases found : s.mgroupTable.getMgroupIndex u.entry.mac with _ | midx
  · simp only [updateMacTable, found, Option.some.injEq] at done
    exact .inl ⟨rfl, done.symm⟩
  · have below : midx < maxMgroup := by
      have bound := shows.index_lt found
      rwa [s.mgroupTable.size] at bound
    rw [updateMacTable_of_index found] at done
    obtain ⟨kernel, registered, rfl⟩ := map_eq_some_iff.1 done
    obtain ⟨j, place, rfl⟩ := registMac_eq_some (isGroup_mac u.entry) registered
    refine .inr ⟨midx, j, rfl, below, place, ?_⟩
    obtain ⟨adds, -, removes, -⟩ := mgroupPort_bits midx below
    unfold Group.port Group.kernelSlot
    by_cases none : u.entry.portMap = 0
    · simp only [if_pos none, if_pos removes]
    · simp only [if_neg none, adds, ne_eq, not_true_eq_false, if_false, (mgroupPort_index midx below).1]

section

variable {u : Update}

variable {midx : Nat}

theorem kernelSlot_free (entry : Group) (below : midx < maxMgroup) :
    (entry.kernelSlot midx).free = false ↔ entry.portMap ≠ 0 := by
  have named : mgroupPort midx ≠ 0 := by
    intro zero
    have index := (mgroupPort_index midx below).2
    rw [zero] at index
    simp at index
    omega
  unfold Group.kernelSlot
  split <;> simp [KernelGroup.free, KernelGroup.zero, *]

theorem slot_free {port : Int} (visible : entry.portMap ≠ 0 → entry.switchMap port ≠ 0) :
    (entry.slot port).free = false ↔ entry.portMap ≠ 0 := by
  rw [Mgroup.free, entry.slot_portmap, decide_eq_false_iff_not]
  refine ⟨fun some none => some (by simp [Group.switchMap, none]), visible⟩

theorem Logged.Coherent.sits_slot (coherent : l.Coherent)
    (visible : u.entry.portMap ≠ 0 → u.entry.switchMap u.igmpRouterPort ≠ 0)
    (found : l.switch.mgroupTable.getMgroupIndex u.entry.mac = some midx) (mac : Block 6) (i : Nat) (a : Mgroup) :
    MgroupTable.Sits (l.switch.mgroupTable.set midx (u.entry.slot u.igmpRouterPort)) mac i a ↔
      (mac = u.entry.mac ∧ u.entry.portMap ≠ 0 ∧ i = midx ∧ a = ⟨mac, u.entry.switchMap u.igmpRouterPort⟩) ∨
      (mac ≠ u.entry.mac ∧ l.switch.mgroupTable.Sits mac i a) := by
  obtain ⟨macs, shows⟩ := coherent.shows
  have moved := shows.kept.sits_set (ne_zero_of_isGroup (isGroup_mac u.entry)) found
    (u.entry.slot_mac_of_used u.igmpRouterPort) mac i a
  rw [slot_free visible] at moved
  refine moved.trans (or_congr_left (and_congr_right fun own => and_congr_right fun ports => ?_))
  rw [own, Group.slot, if_neg ports]

theorem Logged.Coherent.sits_kernelSlot (coherent : l.Coherent) (below : midx < maxMgroup)
    (found : l.switch.kernel.getMgroupIndex u.entry.mac = some j) (mac : Block 6) (i : Nat) (a : KernelGroup) :
    KernelTable.Sits (l.switch.kernel.set j (u.entry.kernelSlot midx)) mac i a ↔
      (mac = u.entry.mac ∧ u.entry.portMap ≠ 0 ∧ i = j ∧ a = ⟨mac, mgroupPort midx⟩) ∨
      (mac ≠ u.entry.mac ∧ l.switch.kernel.Sits mac i a) := by
  obtain ⟨macs, shows⟩ := coherent.shows
  have own : (u.entry.kernelSlot midx).free = false → (u.entry.kernelSlot midx).mac = u.entry.mac := by
    intro used
    rw [Group.kernelSlot, if_neg ((kernelSlot_free u.entry below).1 used)]
  have moved := shows.kernel.kept.sits_set (ne_zero_of_isGroup (isGroup_mac u.entry)) found own mac i a
  rw [kernelSlot_free u.entry below] at moved
  refine moved.trans (or_congr_left (and_congr_right fun own => and_congr_right fun ports => ?_))
  rw [own, Group.kernelSlot, if_neg ports]

variable {map : UInt32}

theorem Logged.active_update {switch : Switch} :
    Logged.Active ⟨switch, Function.update l.last u.entry.mac (some u)⟩ mac map ↔
      (mac = u.entry.mac ∧ u.entry.portMap ≠ 0 ∧ map = u.entry.switchMap u.igmpRouterPort) ∨
      (mac ≠ u.entry.mac ∧ l.Active mac map) := by
  by_cases own : mac = u.entry.mac <;> simp [Logged.Active, own]

/-- **An update whose port map has a bit that the shift keeps is done, and keeps the tables
coherent.** -/
theorem Logged.Coherent.update (coherent : l.Coherent)
    (visible : u.entry.portMap ≠ 0 → u.entry.switchMap u.igmpRouterPort ≠ 0) :
    ∃ l', l.update u = some l' ∧ l'.Coherent := by
  obtain ⟨macs, shows⟩ := coherent.shows
  have related := updateMacTable_rel shows u
  rw [update_of_visible visible] at related
  obtain ⟨s', done, shows'⟩ : ∃ s', u.apply l.switch = some s' ∧ s'.Shows ⟨track macs u, track macs u⟩ := by
    generalize u.apply l.switch = result at related
    cases related with
    | some holds => exact ⟨_, rfl, holds⟩
  refine ⟨_, by rw [Logged.update, done, map_some], ?_⟩
  rcases apply_cases shows done with ⟨absent, rfl⟩ | ⟨midx, j, found, below, place, rfl⟩
  · simp only [absent]
    exact coherent
  · simp only [found, isSome_some, if_true]
    have user := coherent.sits_slot visible found
    have kernel := coherent.sits_kernelSlot below place
    constructor
    case shows => exact ⟨_, shows'⟩
    case seated =>
      intro mac map
      rw [Logged.active_update, coherent.seated mac map]
      simp only [user]
      by_cases own : mac = u.entry.mac <;> simp [own]
    case driver =>
      intro mac vidx
      simp only [user, kernel]
      by_cases own : mac = u.entry.mac
      · simp [own]
      · simpa [own] using coherent.driver mac vidx
    case registers =>
      intro mac i slot sits
      rcases (user mac i slot).1 sits with ⟨-, -, rfl, rfl⟩ | ⟨other, before⟩
      · exact update_self ..
      · have apart := shows.kept.slotFor_ne_of_sits (ne_zero_of_isGroup (isGroup_mac u.entry)) found other before
        refine (update_of_ne (fun same => apart (groupReg_injective same)) _ _).trans ?_
        exact coherent.registers mac i slot before

/-! ## Groups that have room -/

/-- In a table whose groups are among no more than it has slots, each of these has a slot. -/
theorem Logged.Coherent.index_isSome (coherent : l.Coherent)
    (occupied : ∀ mac map, l.Active mac map → mac ∈ macs) (inside : mac ∈ macs)
    (few : macs.card ≤ maxMgroup) : (l.switch.mgroupTable.getMgroupIndex mac).isSome = true := by
  obtain ⟨active, shows⟩ := coherent.shows
  have within : active ⊆ macs := by
    intro mac' inTable
    have listed : mac' ∈ held Mgroup.mac Mgroup.free l.switch.mgroupTable.list := by
      rw [shows.active]
      exact inTable
    obtain ⟨⟨_, map⟩, there, used, rfl⟩ := mem_held.1 listed
    obtain ⟨i, here⟩ := getElem?_of_mem there
    exact occupied _ map ((coherent.seated _ map).2 ⟨i, here, used, rfl⟩)
  rw [isSome_iff_ne_none, Ne, shows.index_eq_none_iff, not_not]
  by_cases own : mac ∈ active
  · exact .inl own
  · refine .inr (Nat.lt_of_lt_of_le (Finset.card_lt_card ?_) few)
    refine Finset.ssubset_iff_subset_ne.2 ⟨within, ?_⟩
    rintro rfl
    exact own inside

theorem Logged.Coherent.update_of_room (coherent : l.Coherent)
    (visible : u.entry.portMap ≠ 0 → u.entry.switchMap u.igmpRouterPort ≠ 0)
    (room : (l.switch.mgroupTable.getMgroupIndex u.entry.mac).isSome = true) :
    ∃ l', l.update u = some l' ∧ l'.Coherent ∧ ∀ mac map, l'.Active mac map ↔
      (mac = u.entry.mac ∧ u.entry.portMap ≠ 0 ∧ map = u.entry.switchMap u.igmpRouterPort) ∨
      (mac ≠ u.entry.mac ∧ l.Active mac map) := by
  obtain ⟨l', done, coherent'⟩ := coherent.update visible
  refine ⟨l', done, coherent', fun mac map => ?_⟩
  rw [Logged.update, if_pos room] at done
  obtain ⟨switch, -, rfl⟩ := map_eq_some_iff.1 done
  exact Logged.active_update

def Switch.registerOf (s : Switch) (mac : Block 6) : Option UInt32 :=
  (s.mgroupTable.getMgroupIndex mac).bind fun midx => s.registers (groupReg midx)

theorem Logged.Coherent.registerOf_eq (coherent : l.Coherent) (active : l.Active mac map) :
    l.switch.registerOf mac = some map := by
  obtain ⟨macs, shows⟩ := coherent.shows
  obtain ⟨midx, sits⟩ := (coherent.seated mac map).1 active
  have found : l.switch.mgroupTable.getMgroupIndex mac = some midx := shows.kept.slotFor_of_sits sits
  rw [Switch.registerOf, found, bind_some, coherent.registers mac midx _ sits]

end

/-! ## The driver's answer -/

section

variable {t : KernelTable}

theorem KernelTable.Holds.vidx_of_sits (holds : t.Holds macs) {g : KernelGroup} (sits : t.Sits mac j g) :
    t.getMgroupVidx mac = g.vidx := by
  obtain ⟨here, used, own⟩ := sits
  have inside := mem_of_getElem? here
  unfold getMgroupVidx
  cases found : t.list.find? fun g => g.mac = mac with
  | none => exact absurd own (by simpa using find?_eq_none.1 found g inside)
  | some g' =>
    have own' : g'.mac = mac := by simpa using find?_some found
    have same := holds.kept.distinct.eq_of_mem inside (mem_of_find?_eq_some found) (own.trans own'.symm)
      (holds.kept.named g inside used)
    rw [same]

/-- The address of no group in use has the index 0, also the one that free slots have. -/
theorem KernelTable.vidx_of_absent (absent : ∀ j g, ¬t.Sits mac j g) : t.getMgroupVidx mac = 0 := by
  unfold getMgroupVidx
  cases found : t.list.find? fun g => g.mac = mac with
  | none => rfl
  | some g =>
    have own : g.mac = mac := by simpa using find?_some found
    obtain ⟨j, here⟩ := getElem?_of_mem (mem_of_find?_eq_some found)
    by_contra used
    exact absent j g ⟨here, decide_eq_false used, own⟩

end

/-! ## Runs -/

theorem Logged.start_coherent : Logged.start.Coherent := by
  have kept : Kept Mgroup.mac Mgroup.free (Block.zero 6) Logged.start.switch.mgroupTable.list :=
    kept_replicate _ (by decide) rfl
  have user : ∀ mac i a, ¬Logged.start.switch.mgroupTable.Sits mac i a := by
    rintro mac i a ⟨here, used, -⟩
    rw [eq_of_mem_replicate (mem_of_getElem? here)] at used
    cases used
  have kernel : ∀ mac i a, ¬Logged.start.switch.kernel.Sits mac i a := by
    rintro mac i a ⟨here, used, -⟩
    rw [eq_of_mem_replicate (mem_of_getElem? here)] at used
    cases used
  constructor
  case shows =>
    exact ⟨∅,
      { kept := kept
        active := held_replicate _ (by decide)
        kernel := holds_zero
        within := Finset.Subset.refl _
        groups := by simp
        registers := fun reg value now => by cases now }⟩
  case seated =>
    intro mac map
    simp only [user, exists_false, iff_false]
    rintro ⟨u, noted, -⟩
    cases noted
  case driver => simp [user, kernel]
  case registers => exact fun mac i slot sits => absurd sits (user mac i slot)

theorem switchMap_ne_zero (below : entry.portMap.toNat < 2 ^ 31) (port : Int)
    (ports : entry.portMap ≠ 0) : entry.switchMap port ≠ 0 := by
  rw [Group.switchMap, if_pos ports]
  intro zero
  have shifted := congrArg UInt32.toNat (UInt32.or_eq_zero_iff.1 zero).1
  have some : entry.portMap.toNat ≠ 0 := fun none => ports (UInt32.toNat_inj.1 none)
  simp at shifted
  omega

theorem Logged.Coherent.vidx_of_sits (coherent : l.Coherent) {midx : Nat} {slot : Mgroup}
    (sits : l.switch.mgroupTable.Sits mac midx slot) :
    midx < maxMgroup ∧ (l.switch.kernel.getMgroupVidx mac).toNat = 256 + midx := by
  obtain ⟨macs, shows⟩ := coherent.shows
  obtain ⟨j, registered⟩ := (coherent.driver mac (mgroupPort midx)).2 ⟨midx, slot, sits, rfl⟩
  obtain ⟨bound, -⟩ := List.getElem?_eq_some_iff.1 sits.1
  rw [l.switch.mgroupTable.size] at bound
  exact ⟨bound, by rw [shows.kernel.vidx_of_sits registered, (mgroupPort_index midx bound).2]⟩

theorem Logged.Coherent.sits_of_vidx (coherent : l.Coherent) (indexed : l.switch.kernel.getMgroupVidx mac ≠ 0) :
    ∃ midx map, l.switch.mgroupTable.Sits mac midx ⟨mac, map⟩ := by
  by_contra unseated
  refine indexed (vidx_of_absent fun j g sits => ?_)
  obtain ⟨g', vidx⟩ := g
  obtain rfl : g' = mac := sits.2.2
  obtain ⟨midx, ⟨mac', map⟩, sits', -⟩ := (coherent.driver g' vidx).1 ⟨j, sits⟩
  obtain rfl : mac' = g' := sits'.2.2
  exact unseated ⟨midx, map, sits'⟩

theorem replay_coherent (updates : List Update) (bounded : ∀ u ∈ updates, u.entry.portMap.toNat < 2 ^ 31)
    (coherent : l.Coherent) : ∃ l', replay Logged.update updates l = some l' ∧ l'.Coherent := by
  induction updates generalizing l with
  | nil => exact ⟨l, rfl, coherent⟩
  | cons u rest ih =>
    obtain ⟨first, bounded⟩ := forall_mem_cons.1 bounded
    obtain ⟨next, done, coherent'⟩ := coherent.update (switchMap_ne_zero first u.igmpRouterPort)
    obtain ⟨l', ran, holds⟩ := ih bounded coherent'
    exact ⟨l', by rw [replay, done, bind_some, ran], holds⟩

/-- **After every sequence of updates from empty tables** the driver has not left its table, and
* a group whose last update with a slot had ports sits in one slot of the proxy; the driver has the
  index of that slot for it, and the register has the map;
* every other address has the index 0, and no two addresses have one index. -/
theorem tables_coherent (updates : List Update) (bounded : ∀ u ∈ updates, u.entry.portMap.toNat < 2 ^ 31) :
    ∃ l, replay Logged.update updates Logged.start = some l ∧
      (∀ mac u, l.last mac = some u → u.entry.portMap ≠ 0 →
        ∃ midx < maxMgroup,
          (∀ i, (l.switch.mgroupTable.list[i]?).map Mgroup.mac = some mac ↔ i = midx) ∧
          (l.switch.kernel.getMgroupVidx mac).toNat = 256 + midx ∧
          l.switch.registers (groupReg midx) = some (u.entry.switchMap u.igmpRouterPort)) ∧
      (∀ mac, (∀ u, l.last mac = some u → u.entry.portMap = 0) → l.switch.kernel.getMgroupVidx mac = 0) ∧
      ∀ mac mac', l.switch.kernel.getMgroupVidx mac = l.switch.kernel.getMgroupVidx mac' →
        l.switch.kernel.getMgroupVidx mac ≠ 0 → mac = mac' := by
  obtain ⟨l, ran, coherent⟩ := replay_coherent updates bounded Logged.start_coherent
  obtain ⟨macs, shows⟩ := coherent.shows
  refine ⟨l, ran, fun mac u noted ports => ?_, fun mac removed => ?_, fun mac mac' same indexed => ?_⟩
  · obtain ⟨midx, sits⟩ := (coherent.seated mac _).1 ⟨u, noted, ports, rfl⟩
    obtain ⟨below, vidx⟩ := coherent.vidx_of_sits sits
    refine ⟨midx, below, fun i => ⟨fun here => ?_, fun here => ?_⟩, vidx, coherent.registers mac midx _ sits⟩
    · obtain ⟨slot, at', own⟩ := map_eq_some_iff.1 here
      have real := shows.kept.named _ (mem_of_getElem? sits.1) sits.2.1
      exact (shows.kept.distinct.index_eq sits.1 at' own.symm real).symm
    · rw [here, sits.1]
      rfl
  · by_contra indexed
    obtain ⟨midx, map, sits⟩ := coherent.sits_of_vidx indexed
    obtain ⟨u, noted, ports, -⟩ := (coherent.seated mac map).2 ⟨midx, sits⟩
    exact ports (removed u noted)
  · obtain ⟨midx, map, sits⟩ := coherent.sits_of_vidx indexed
    obtain ⟨midx', map', sits'⟩ := coherent.sits_of_vidx (fun none => indexed (same.trans none))
    have vidx := (coherent.vidx_of_sits sits).2
    rw [same, (coherent.vidx_of_sits sits').2] at vidx
    obtain rfl : midx' = midx := by omega
    exact congrArg Mgroup.mac (Option.some.inj (sits.1.symm.trans sits'.1))

/-- A group is added, another removed that was never added, and the first one is changed. -/
def threeUpdates : List Update := [⟨⟨1, 2, 3, 0x2⟩, -1⟩, ⟨⟨1, 2, 4, 0x0⟩, -1⟩, ⟨⟨1, 2, 3, 0x6⟩, 4⟩]

theorem tables_coherent_threeUpdates : ∃ l, replay Logged.update threeUpdates Logged.start = some l ∧
      (∃ midx < maxMgroup, (l.switch.kernel.getMgroupVidx (Group.mac ⟨1, 2, 3, 0⟩)).toNat = 256 + midx) ∧
      l.switch.kernel.getMgroupVidx (Group.mac ⟨1, 2, 4, 0⟩) = 0 := by
  obtain ⟨l, ran, seated, others, -⟩ := tables_coherent threeUpdates (by decide)
  have noted : (replay Logged.update threeUpdates Logged.start).map (fun l =>
      ((l.last (Group.mac ⟨1, 2, 3, 0⟩)).map (·.entry.portMap), (l.last (Group.mac ⟨1, 2, 4, 0⟩)).map (·.entry.portMap))) =
      some (some 0x6, some 0x0) := by
    decide +kernel
  rw [ran, map_some, Option.some.injEq, Prod.mk.injEq] at noted
  obtain ⟨u, last, six⟩ := map_eq_some_iff.1 noted.1
  obtain ⟨midx, below, -, vidx, -⟩ := seated _ u last (by rw [six]; decide)
  refine ⟨l, ran, ⟨midx, below, vidx⟩, others _ fun u' last' => ?_⟩
  have none := noted.2
  rw [last'] at none
  exact Option.some.inj none

end RouterApps.Salsa2
