/-
# Bridge.Trunk -- whether a trunk is one port of the spanning tree

`br_trunk_member_port_state_selection` finds the members of a trunk by bit `port_no - 1`,
and `trunk_first_port_no` finds the port that stands for them by bit `port_no`.  The port
that is found is a member only where both bits are set.

What a loop considers depends on the wiring alone, the numbers and maps of the ports, and
no loop changes the wiring (`forEachPort_considered`).  The members of a trunk change in
the visit of their own port only (`selectPortState_coherent`).
-/
import RouterApps.Bridge.Stp

namespace RouterApps.Bridge

open List Function

/-! ## Wiring -/

def Port.memberOf (p : Port) (trunkMap : BitVec 32) : Bool := bit trunkMap (p.portNo - 1)

/-- What no loop changes. -/
def NetBridge.wiring (br : NetBridge) : List (Nat × BitVec 32) := br.ports.map fun p => (p.portNo, p.trunkMap)

/-- The loops go on from here with the port of this number. -/
def NetBridge.considers (br : NetBridge) (portNo : Nat) : Bool := (brGetPort br portNo).any fun p => !br.skips p

theorem modify_wiring (br : NetBridge) (which : Port → Bool) (f : PortStp → PortStp) :
    (br.modify which f).wiring = br.wiring := by
  unfold NetBridge.wiring NetBridge.modify
  rw [map_map]
  refine map_congr_left fun p _ => ?_
  simp only [comp]
  split <;> rfl

variable {br br' : NetBridge} {p r : Port} {trunkMap : BitVec 32}

theorem wiring_of_ports (same : br'.ports = br.ports) : br'.wiring = br.wiring := by
  unfold NetBridge.wiring
  rw [same]

theorem trunkFirstPortNo_of_wiring (br : NetBridge) (trunkMap : BitVec 32) :
    trunkFirstPortNo br trunkMap = (br.wiring.find? fun w => bit trunkMap w.1).map Prod.fst := by
  unfold trunkFirstPortNo NetBridge.wiring
  simp [comp_def]

theorem considers_of_wiring (br : NetBridge) (portNo : Nat) : br.considers portNo =
      (br.wiring.find? fun w => w.1 = portNo).any fun w =>
        !(w.2 ≠ 0 && (br.wiring.find? fun v => bit w.2 v.1).map Prod.fst ≠ some w.1) := by
  have found : (br.wiring.find? fun w => w.1 = portNo) = (brGetPort br portNo).map fun p => (p.portNo, p.trunkMap) := by
    unfold NetBridge.wiring brGetPort
    rw [find?_map]
    rfl
  rw [found]
  unfold NetBridge.considers NetBridge.skips
  cases brGetPort br portNo with
  | none => rfl
  | some p => simp [trunkFirstPortNo_of_wiring]

theorem considers_congr (same : br'.wiring = br.wiring) (portNo : Nat) :
    br'.considers portNo = br.considers portNo := by
  rw [considers_of_wiring, considers_of_wiring, same]

/-! ## What the loops consider -/

section

variable {σ : Type} {bridge : σ → NetBridge} {body : Port → σ → σ}

theorem forEachPort_considered (keeps : ∀ p s, (bridge (body p s)).wiring = (bridge s).wiring) (portNos : List Nat)
    (s : σ) : (forEachPort bridge body portNos s).2 = portNos.filter (bridge s).considers := by
  induction portNos generalizing s with
  | nil => rfl
  | cons portNo rest ih =>
    cases found : brGetPort (bridge s) portNo with
    | none =>
      have passed : (bridge s).considers portNo = false := by simp [NetBridge.considers, found]
      simpa [forEachPort, found, passed] using ih s
    | some p =>
      have taken : (bridge s).considers portNo = !(bridge s).skips p := by simp [NetBridge.considers, found]
      have onward : (bridge (body p s)).considers = (bridge s).considers :=
        funext (considers_congr (keeps p s))
      by_cases skipped : (bridge s).skips p
      · simpa [forEachPort, found, taken, skipped] using ih s
      · simpa [forEachPort, found, taken, skipped, onward] using ih (body p s)

theorem forEachPort_invariant (I : σ → Prop)
    (visit : ∀ s p, I s → p ∈ (bridge s).ports → (bridge s).skips p = false → I (body p s)) (portNos : List Nat)
    (s : σ) (start : I s) : I (forEachPort bridge body portNos s).1 := by
  induction portNos generalizing s with
  | nil => exact start
  | cons portNo rest ih =>
    simp only [forEachPort]
    split
    · exact ih s start
    · rename_i p found
      have inList : p ∈ (bridge s).ports := mem_of_find?_eq_some found
      split
      · exact ih s start
      · rename_i visited
        exact ih (body p s) (visit s p start inList (by simpa using visited))

end

/-- The ports that each of the four functions considers, in the order of the source. -/
def considerations (clock : Clock) (br : NetBridge) : List (List Nat) :=
  [(rootSelectionLoop br).2, (designatedPortSelectionLoop br).2,
    if br.stpEnabled = .user then [] else (portStateSelectionLoop clock br).2,
    (configBpduGenerationLoop clock br).2]

theorem modifyPort_wiring (br : NetBridge) (portNo : Nat) (f : PortStp → PortStp) :
    (br.modifyPort portNo f).wiring = br.wiring :=
  modify_wiring br _ f

theorem spread_wiring (br : NetBridge) (p : Port) (state : State) : (br.spread p state).wiring = br.wiring := by
  unfold NetBridge.spread
  split
  · exact modify_wiring _ _ _
  · rfl

variable {before : NetBridge} (clock : Clock)

theorem brTopologyChangeDetection_ports (br : NetBridge) : (brTopologyChangeDetection clock br).ports = br.ports := by
  unfold brTopologyChangeDetection
  split
  · rfl
  · split
    · rfl
    · split <;> rfl

theorem brTransmitConfig_wiring (br : NetBridge) (p : Port) : (brTransmitConfig clock br p).wiring = br.wiring := by
  unfold brTransmitConfig
  split
  · exact modifyPort_wiring br p.portNo _
  · split
    · exact modifyPort_wiring (br.emit _) p.portNo _
    · rfl

/-! ## A visit of the port state selection -/

theorem modify_ports (br : NetBridge) (which : Port → Bool) (f : PortStp → PortStp) :
    (br.modify which f).ports = br.ports.map fun p => if which p then { p with stp := f p.stp } else p :=
  rfl

theorem modify_congr (same : br'.ports = br.ports) (which : Port → Bool)
    (f : PortStp → PortStp) : (br'.modify which f).ports = (br.modify which f).ports := by
  rw [modify_ports, modify_ports, same]

theorem spread_congr (same : br'.ports = br.ports) (p : Port) (state : State) :
    (br'.spread p state).ports = (br.spread p state).ports := by
  unfold NetBridge.spread
  split
  · simp only [brTrunkMemberPortStateSelection, modify_ports, NetBridge.emit, same]
  · exact same

theorem modifyPort_modifyPort (br : NetBridge) (portNo : Nat) (f g : PortStp → PortStp) :
    ((br.modifyPort portNo f).modifyPort portNo g).ports = (br.modifyPort portNo fun stp => g (f stp)).ports := by
  unfold NetBridge.modifyPort
  rw [modify_ports, modify_ports, map_map]
  refine map_congr_left fun p _ => ?_
  by_cases this : p.portNo = portNo <;> simp [this]

/-- A write to the port `p`, and the state that it then spreads to its trunk. -/
def Changes (br br' : NetBridge) (p : Port) : Prop :=
  ∃ f state, (∀ stp, (f stp).state = state) ∧ br'.ports = ((br.modifyPort p.portNo f).spread p state).ports

def ChangesTo (br br' : NetBridge) (p : Port) (state : State) : Prop :=
  ∃ f, (∀ stp, (f stp).state = state) ∧ br'.ports = ((br.modifyPort p.portNo f).spread p state).ports

/-- A write to the port `p` that leaves its state. -/
def Keeps (br br' : NetBridge) (p : Port) : Prop :=
  ∃ f, (∀ stp, (f stp).state = stp.state) ∧ br'.ports = (br.modifyPort p.portNo f).ports

theorem brMakeBlocking_spec (br : NetBridge) (p : Port) :
    (brMakeBlocking clock br p).ports = br.ports ∨ ChangesTo br (brMakeBlocking clock br p) p .blocking := by
  unfold brMakeBlocking
  split
  · refine .inr ⟨_, ?_, spread_congr (modify_congr ?_ _ _) p .blocking⟩
    · exact fun _ => rfl
    · split
      · exact brTopologyChangeDetection_ports clock br
      · rfl
  · exact .inl rfl

theorem brMakeForwarding_spec (br : NetBridge) (p : Port) : (brMakeForwarding clock br p).ports = br.ports ∨
      ChangesTo br (brMakeForwarding clock br p) p (unblockedState br) := by
  unfold brMakeForwarding
  split
  · exact .inl rfl
  · refine .inr ⟨_, ?_, spread_congr (modify_congr ?_ _ _) p _⟩
    · exact fun _ => rfl
    · split
      · exact brTopologyChangeDetection_ports clock br
      · rfl

theorem unblockedState_ne_disabled (br : NetBridge) : unblockedState br ≠ .disabled := by
  unfold unblockedState
  split
  · decide
  · split <;> decide

/-- A write that leaves the state, and then what `br_make_forwarding` or `br_make_blocking` does. -/
theorem keeps_or_changes {f : PortStp → PortStp} {state : State} (leaves : ∀ stp, (f stp).state = stp.state)
    (made : br'.ports = (br.modifyPort p.portNo f).ports ∨ ChangesTo (br.modifyPort p.portNo f) br' p state) :
    Keeps br br' p ∨ ChangesTo br br' p state := by
  obtain same | ⟨g, sets, written⟩ := made
  · exact .inl ⟨f, leaves, same⟩
  · refine .inr ⟨fun stp => g (f stp), fun stp => sets (f stp), ?_⟩
    rw [written]
    exact spread_congr (modifyPort_modifyPort br p.portNo f g) p state

/-- **A visit of a port** that is not disabled keeps its state, or gives it one that it spreads to
its trunk. -/
theorem selectPortState_cases (br : NetBridge) (p : Port) : (selectPortState clock p br).ports = br.ports ∨
      (p.stp.state ≠ .disabled ∧ (Keeps br (selectPortState clock p br) p ∨
        ∃ state, state ≠ .disabled ∧ ChangesTo br (selectPortState clock p br) p state)) := by
  unfold selectPortState
  split
  · exact .inl rfl
  · rename_i awake
    refine .inr ⟨awake, ?_⟩
    split
    · refine (keeps_or_changes ?_ (brMakeForwarding_spec clock _ p)).imp_right fun changes =>
        ⟨_, unblockedState_ne_disabled _, changes⟩
      exact fun _ => rfl
    · split
      · refine (keeps_or_changes ?_ (brMakeForwarding_spec clock _ p)).imp_right fun changes =>
          ⟨_, unblockedState_ne_disabled _, changes⟩
        exact fun _ => rfl
      · refine (keeps_or_changes ?_ (brMakeBlocking_spec clock _ p)).imp_right fun changes =>
          ⟨.blocking, by decide, changes⟩
        exact fun _ => rfl

theorem selectPortState_spec (br : NetBridge) (p : Port) : (selectPortState clock p br).ports = br.ports ∨
      Keeps br (selectPortState clock p br) p ∨ Changes br (selectPortState clock p br) p := by
  obtain same | ⟨-, keeps | ⟨state, -, f, sets, written⟩⟩ := selectPortState_cases clock br p
  · exact .inl same
  · exact .inr (.inl keeps)
  · exact .inr (.inr ⟨f, state, sets, written⟩)

theorem selectPortState_wiring (br : NetBridge) (p : Port) : (selectPortState clock p br).wiring = br.wiring := by
  obtain same | ⟨f, -, written⟩ | ⟨f, state, -, written⟩ := selectPortState_spec clock br p
  · exact wiring_of_ports same
  · rw [wiring_of_ports written, modifyPort_wiring]
  · rw [wiring_of_ports written, spread_wiring, modifyPort_wiring]

theorem considerations_eq (br : NetBridge) : considerations clock br =
      let chosen := (br.ports.map Port.portNo).filter br.considers
      [chosen, chosen, if br.stpEnabled = .user then [] else chosen, chosen] := by
  have root : (rootSelectionLoop br).2 = (br.ports.map Port.portNo).filter br.considers := by
    refine forEachPort_considered (fun p s => ?_) _ (br, 0)
    dsimp only
    split <;> rfl
  have designated : (designatedPortSelectionLoop br).2 = (br.ports.map Port.portNo).filter br.considers := by
    refine forEachPort_considered (fun p s => ?_) _ br
    dsimp only [id]
    split
    · exact modifyPort_wiring s p.portNo _
    · rfl
  have config : (configBpduGenerationLoop clock br).2 = (br.ports.map Port.portNo).filter br.considers := by
    refine forEachPort_considered (fun p s => ?_) _ br
    split
    · exact brTransmitConfig_wiring clock s p
    · rfl
  have portState : (portStateSelectionLoop clock br).2 = (br.ports.map Port.portNo).filter br.considers :=
    forEachPort_considered (fun p s => selectPortState_wiring clock s p) _ br
  simp only [considerations, root, designated, config, portState]

/-! ## The states of the members -/

/-- Every port that is in another's map carries that map. -/
def Bundled (br : NetBridge) : Prop :=
  ∀ x ∈ br.ports, ∀ q ∈ br.ports, q.memberOf x.trunkMap → q.trunkMap = x.trunkMap

def Carried (br : NetBridge) (trunkMap : BitVec 32) : Prop :=
  ∀ q ∈ br.ports, q.memberOf trunkMap → q.trunkMap = trunkMap

def NetBridge.memberStates (br : NetBridge) (trunkMap : BitVec 32) : List (Nat × State) :=
  (br.ports.filter fun p => p.memberOf trunkMap).map fun p => (p.portNo, p.stp.state)

theorem mem_memberStates (inList : p ∈ br.ports)
    (member : p.memberOf trunkMap) : (p.portNo, p.stp.state) ∈ br.memberStates trunkMap :=
  mem_map.2 ⟨p, mem_filter.2 ⟨inList, member⟩, rfl⟩

theorem modify_memberStates (br : NetBridge) (trunkMap : BitVec 32) (which : Port → Bool) (f : PortStp → PortStp) :
    (br.modify which f).memberStates trunkMap =
      (br.ports.filter fun p => p.memberOf trunkMap).map fun p =>
        (p.portNo, if which p then (f p.stp).state else p.stp.state) := by
  unfold NetBridge.memberStates
  rw [modify_ports, filter_map, map_map]
  have sameMembers : (fun p : Port => p.memberOf trunkMap) ∘
      (fun p => if which p then { p with stp := f p.stp } else p) = fun p => p.memberOf trunkMap := by
    funext p
    simp only [comp]
    split <;> rfl
  rw [sameMembers]
  refine map_congr_left fun p _ => ?_
  simp only [comp]
  split <;> rfl

theorem modify_memberStates_same {which : Port → Bool} {f : PortStp → PortStp}
    (leaves : ∀ p ∈ br.ports, p.memberOf trunkMap → which p → (f p.stp).state = p.stp.state) :
    (br.modify which f).memberStates trunkMap = br.memberStates trunkMap := by
  rw [modify_memberStates]
  refine map_congr_left fun p kept => ?_
  obtain ⟨inList, member⟩ := mem_filter.1 kept
  split
  · rename_i chosen
    rw [leaves p inList member chosen]
  · rfl

theorem memberStates_of_ports (same : br'.ports = br.ports) (trunkMap : BitVec 32) :
    br'.memberStates trunkMap = br.memberStates trunkMap := by
  unfold NetBridge.memberStates
  rw [same]

/-- The members are as they were, or they all have one state. -/
def Coherent (before after : NetBridge) (trunkMap : BitVec 32) : Prop :=
  after.memberStates trunkMap = before.memberStates trunkMap ∨ ∃ state, ∀ x ∈ after.memberStates trunkMap, x.2 = state

theorem Coherent.of_same (start : Coherent before br trunkMap)
    (same : br'.memberStates trunkMap = br.memberStates trunkMap) : Coherent before br' trunkMap := by
  unfold Coherent
  rw [same]
  exact start

theorem spread_memberStates_own (carries : p.trunkMap = trunkMap)
    (nonzero : trunkMap ≠ 0) (state : State) : ∀ x ∈ (br.spread p state).memberStates trunkMap, x.2 = state := by
  intro x listed
  unfold NetBridge.spread brTrunkMemberPortStateSelection at listed
  rw [carries, if_pos nonzero, modify_memberStates] at listed
  obtain ⟨q, kept, rfl⟩ := mem_map.1 listed
  have member := (mem_filter.1 kept).2
  exact if_pos member

theorem spread_memberStates_other
    (apart : ∀ q ∈ br.ports, q.memberOf trunkMap → ¬ q.memberOf p.trunkMap) (state : State) :
    (br.spread p state).memberStates trunkMap = br.memberStates trunkMap := by
  unfold NetBridge.spread
  split
  · refine modify_memberStates_same fun q inList member chosen => ?_
    exact absurd chosen (apart q inList member)
  · rfl

theorem memberOf_nonzero (member : p.memberOf trunkMap) : trunkMap ≠ 0 := by
  rintro rfl
  simp [Port.memberOf, bit] at member

variable {q : Port}

theorem exists_of_wiring (same : br'.wiring = br.wiring) (inList : q ∈ br'.ports) :
    ∃ old ∈ br.ports, q.portNo = old.portNo ∧ q.trunkMap = old.trunkMap := by
  have listed : (q.portNo, q.trunkMap) ∈ br'.wiring := mem_map.2 ⟨q, inList, rfl⟩
  rw [same] at listed
  obtain ⟨old, there, agrees⟩ := mem_map.1 listed
  simp only [Prod.mk.injEq] at agrees
  exact ⟨old, there, agrees.1.symm, agrees.2.symm⟩

/-- **One visit.**  Where the port found for the trunk is a member, the members stay as they were or
get one state. -/
theorem selectPortState_coherent {clock : Clock}
    (bundled : Bundled br) (carried : Carried br trunkMap) (leads : trunkFirstPortNo br trunkMap = some r.portNo)
    (member : r.memberOf trunkMap) (inList : p ∈ br.ports) (visited : br.skips p = false)
    (start : Coherent before br trunkMap) : Coherent before (selectPortState clock p br) trunkMap := by
  by_cases own : p.memberOf trunkMap
  · obtain same | ⟨f, leaves, written⟩ | ⟨f, state, -, written⟩ := selectPortState_spec clock br p
    · exact start.of_same (memberStates_of_ports same trunkMap)
    · refine start.of_same ?_
      rw [memberStates_of_ports written]
      exact modify_memberStates_same fun q _ _ _ => leaves q.stp
    · refine .inr ⟨state, ?_⟩
      rw [memberStates_of_ports written]
      exact spread_memberStates_own (carried p inList own) (memberOf_nonzero own) state
  · -- a map that shares a member with this trunk is its map, and its port is then the member found
    have apart : ∀ q ∈ br.ports, q.memberOf trunkMap → ¬ q.memberOf p.trunkMap := by
      intro q there ofTrunk ofOther
      have sameMap : p.trunkMap = trunkMap := by
        rw [← bundled p inList q there ofOther, carried q there ofTrunk]
      have nonzero : trunkMap ≠ 0 := memberOf_nonzero ofTrunk
      have found : r.portNo = p.portNo := by
        have notSkipped : ¬ trunkMap = 0#32 → r.portNo = p.portNo := by
          simpa [NetBridge.skips, sameMap, leads] using visited
        exact notSkipped nonzero
      exact own (by simpa [Port.memberOf, ← found] using member)
    have untouched : ∀ f, (br.modifyPort p.portNo f).memberStates trunkMap = br.memberStates trunkMap := by
      intro f
      refine modify_memberStates_same fun q _ ofTrunk chosen => ?_
      have sameNo : q.portNo = p.portNo := by simpa using chosen
      exact absurd (by simpa [Port.memberOf, ← sameNo] using ofTrunk) own
    refine start.of_same ?_
    obtain same | ⟨f, -, written⟩ | ⟨f, state, -, written⟩ := selectPortState_spec clock br p
    · exact memberStates_of_ports same trunkMap
    · rw [memberStates_of_ports written, untouched]
    · rw [memberStates_of_ports written, spread_memberStates_other, untouched]
      intro q there ofTrunk ofOther
      obtain ⟨old, listed, sameNo, -⟩ := exists_of_wiring (modifyPort_wiring br p.portNo f) there
      refine apart old listed ?_ ?_
      · simpa [Port.memberOf, sameNo] using ofTrunk
      · simpa [Port.memberOf, sameNo] using ofOther

theorem Carried.of_wiring (carried : Carried br trunkMap) (same : br'.wiring = br.wiring) : Carried br' trunkMap := by
  intro q inList member
  obtain ⟨old, there, sameNo, sameMap⟩ := exists_of_wiring same inList
  rw [sameMap]
  exact carried old there (by simpa [Port.memberOf, sameNo] using member)

theorem Bundled.of_wiring (bundled : Bundled br) (same : br'.wiring = br.wiring) : Bundled br' := by
  intro x inList
  obtain ⟨old, there, -, sameMap⟩ := exists_of_wiring same inList
  rw [sameMap]
  exact Carried.of_wiring (bundled old there) same

/-- **The whole loop.** -/
theorem portStateSelectionLoop_coherent
    (bundled : Bundled br) (carried : Carried br trunkMap) (leads : trunkFirstPortNo br trunkMap = some r.portNo)
    (member : r.memberOf trunkMap) : (portStateSelectionLoop clock br).1.wiring = br.wiring ∧
      Coherent br (portStateSelectionLoop clock br).1 trunkMap := by
  refine forEachPort_invariant (fun s => s.wiring = br.wiring ∧ Coherent br s trunkMap) ?_ _ br ⟨rfl, .inl rfl⟩
  rintro s p ⟨same, coherent⟩ inList visited
  have leadsNow : trunkFirstPortNo s trunkMap = some r.portNo := by
    rw [trunkFirstPortNo_of_wiring, same, ← trunkFirstPortNo_of_wiring, leads]
  exact ⟨(selectPortState_wiring clock s p).trans same,
    selectPortState_coherent (bundled.of_wiring same) (carried.of_wiring same) leadsNow member inList visited coherent⟩

/-! ## One port of the spanning tree -/

theorem brGetPort_of_mem (inList : p ∈ br.ports) : brGetPort br p.portNo = some p := by
  cases found : brGetPort br p.portNo with
  | none => simpa using find?_eq_none.1 found p inList
  | some q =>
    have sameNo : q.portNo = p.portNo := by simpa using find?_some found
    rw [inj_on_of_nodup_map br.numbered (mem_of_find?_eq_some found) inList sameNo]

theorem considers_member (carried : Carried br trunkMap) (inList : q ∈ br.ports) (member : q.memberOf trunkMap) :
    br.considers q.portNo ↔ trunkFirstPortNo br trunkMap = some q.portNo := by
  have nonzero : ¬ trunkMap = 0#32 := memberOf_nonzero member
  simp [NetBridge.considers, brGetPort_of_mem inList, NetBridge.skips, carried q inList member, nonzero]

/-- The first port of the list with bit `port_no` in the map has bit `port_no - 1` too. -/
def FirstLeads (br : NetBridge) (trunkMap : BitVec 32) : Prop :=
  ∃ before r after, br.ports = before ++ r :: after ∧ (∀ q ∈ before, bit trunkMap q.portNo = false) ∧
    bit trunkMap r.portNo = true ∧ bit trunkMap (r.portNo - 1) = true

theorem firstLeads_iff (br : NetBridge) (trunkMap : BitVec 32) : FirstLeads br trunkMap ↔
      ∃ r ∈ br.ports, r.memberOf trunkMap ∧ trunkFirstPortNo br trunkMap = some r.portNo := by
  constructor
  · rintro ⟨before, r, after, split, none, own, member⟩
    have found : br.ports.find? (fun p => bit trunkMap p.portNo) = some r :=
      find?_eq_some_iff_append.2 ⟨own, before, after, split, fun q there => by simp [none q there]⟩
    exact ⟨r, by simp [split], member, by simp [trunkFirstPortNo, found]⟩
  · rintro ⟨r, inList, member, leads⟩
    obtain ⟨p, found, sameNo⟩ := Option.map_eq_some_iff.1 leads
    obtain rfl : p = r := inj_on_of_nodup_map br.numbered (mem_of_find?_eq_some found) inList sameNo
    obtain ⟨own, before, after, split, none⟩ := find?_eq_some_iff_append.1 found
    exact ⟨before, p, after, split, fun q there => by simpa using none q there, own, member⟩

/-- The four functions consider one member only, the same; and a state that
`br_port_state_selection` gives it is that of all members afterwards. -/
def ActsAsOnePort (clock : Clock) (br : NetBridge) (trunkMap : BitVec 32) : Prop :=
  ∃ r ∈ br.ports, r.memberOf trunkMap ∧
    (∀ considered ∈ considerations clock br, ∀ q ∈ br.ports, q.memberOf trunkMap →
      (q.portNo ∈ considered ↔ q.portNo = r.portNo)) ∧
    ∀ r' ∈ (brPortStateSelection clock br).ports, ∀ q' ∈ (brPortStateSelection clock br).ports,
      r'.portNo = r.portNo → r'.stp.state ≠ r.stp.state → q'.memberOf trunkMap → q'.stp.state = r'.stp.state

theorem states_follow {clock : Clock} {r' q' : Port} (bundled : Bundled br)
    (carried : Carried br trunkMap) (leads : trunkFirstPortNo br trunkMap = some r.portNo)
    (inList : r ∈ br.ports) (member : r.memberOf trunkMap)
    (after : r' ∈ (portStateSelectionLoop clock br).1.ports) (also : q' ∈ (portStateSelectionLoop clock br).1.ports)
    (sameNo : r'.portNo = r.portNo) (changed : r'.stp.state ≠ r.stp.state) (ofTrunk : q'.memberOf trunkMap) :
    q'.stp.state = r'.stp.state := by
  have memberAfter : r'.memberOf trunkMap := by simpa [Port.memberOf, sameNo] using member
  have listed := mem_memberStates after memberAfter
  obtain ⟨-, same | ⟨state, all⟩⟩ := portStateSelectionLoop_coherent clock bundled carried leads member
  · rw [same] at listed
    obtain ⟨old, kept, agrees⟩ := mem_map.1 listed
    simp only [Prod.mk.injEq] at agrees
    obtain rfl : old = r := inj_on_of_nodup_map br.numbered (mem_filter.1 kept).1 inList (agrees.1.trans sameNo)
    exact absurd agrees.2.symm changed
  · exact (all _ (mem_memberStates also ofTrunk)).trans (all _ listed).symm

/-- **A trunk is one port of the spanning tree exactly where the port found for it is a member**,
and the port states are not left to user space. -/
theorem acts_as_one_port_iff (clock : Clock) (br : NetBridge) (trunkMap : BitVec 32) (bundled : Bundled br)
    (carried : Carried br trunkMap) :
    ActsAsOnePort clock br trunkMap ↔ br.stpEnabled ≠ .user ∧ FirstLeads br trunkMap := by
  rw [firstLeads_iff]
  constructor
  · rintro ⟨r, inList, member, only, -⟩
    rw [considerations_eq] at only
    constructor
    · intro user
      have none := only [] (by simp [user]) r inList member
      simp at none
    · have chosen := (only _ (mem_cons_self ..) r inList member).2 rfl
      exact ⟨r, inList, member, (considers_member carried inList member).1 (mem_filter.1 chosen).2⟩
  · rintro ⟨kernel, r, inList, member, leads⟩
    refine ⟨r, inList, member, ?_, ?_⟩
    · intro considered listed q there ofTrunk
      have chosen : considered = (br.ports.map Port.portNo).filter br.considers := by
        rw [considerations_eq] at listed
        simpa [kernel] using listed
      have numbered : q.portNo ∈ br.ports.map Port.portNo := List.mem_map.2 ⟨q, there, rfl⟩
      rw [chosen, mem_filter, considers_member carried there ofTrunk, leads]
      simp only [numbered, true_and, Option.some.injEq]
      exact eq_comm
    · intro r' after q' also sameNo changed ofTrunk
      simp only [brPortStateSelection, if_neg kernel] at after also
      exact states_follow bundled carried leads inList member after also sameNo changed ofTrunk

def sampleClock : Clock := ⟨1000, 100, id⟩

def samplePort (portNo : Nat) (trunkMap : BitVec 32) : Port where
  portNo := portNo
  trunkMap := trunkMap
  stp :=
    { state := .blocking
      portId := 0x8000
      pathCost := 19
      designatedRoot := 5
      designatedCost := 0
      designatedBridge := 5
      designatedPort := 0x8000
      topologyChangeAck := false
      configPending := false
      forwardDelayTimer := ⟨false, 0⟩
      holdTimer := ⟨false, 0⟩
      messageAgeTimer := ⟨false, 0⟩ }

/-- Ports 1 to 4, as they stand in the list after they were added in this order. -/
def sampleBridge (map : Nat → BitVec 32) : NetBridge where
  ports := [samplePort 4 (map 4), samplePort 3 (map 3), samplePort 2 (map 2), samplePort 1 (map 1)]
  bridgeId := 5
  designatedRoot := 5
  rootPathCost := 0
  rootPort := 0
  maxAge := 2000
  helloTime := 200
  forwardDelay := 1500
  bridgeMaxAge := 2000
  bridgeHelloTime := 200
  bridgeForwardDelay := 1500
  stpEnabled := .kernel
  topologyChange := false
  topologyChangeDetected := false
  tcnTimer := ⟨false, 0⟩
  topologyChangeTimer := ⟨false, 0⟩
  sent := []
  numbered := by simp [samplePort]
  fromOne := by simp [samplePort]

/-- Ports 2 and 3 are a trunk. -/
def neighbours : NetBridge := sampleBridge fun portNo => if portNo = 2 ∨ portNo = 3 then 0b0110 else 0

/-- Ports 2 and 4 are a trunk. -/
def everyOther : NetBridge := sampleBridge fun portNo => if portNo = 2 ∨ portNo = 4 then 0b1010 else 0

theorem neighbours_act_as_one : ActsAsOnePort sampleClock neighbours 0b0110 := by
  refine (acts_as_one_port_iff sampleClock neighbours 0b0110 (by unfold Bundled; decide) (by unfold Carried; decide)).2
    ⟨by decide, ?_⟩
  exact ⟨[samplePort 4 0, samplePort 3 0b0110], samplePort 2 0b0110, [samplePort 1 0], rfl, by decide, by decide, by decide⟩

/-- Port 3 is the one that is found for the trunk of ports 2 and 4, so that no member is considered. -/
theorem everyOther_left_out :
    Bundled everyOther ∧ Carried everyOther 0b1010 ∧ (∃ q ∈ everyOther.ports, q.memberOf 0b1010) ∧
      everyOther.stpEnabled = .kernel ∧ trunkFirstPortNo everyOther 0b1010 = some 3 ∧
      ¬ ActsAsOnePort sampleClock everyOther 0b1010 := by
  have carried : Carried everyOther 0b1010 := by unfold Carried; decide
  have found : trunkFirstPortNo everyOther 0b1010 = some 3 := by decide
  refine ⟨by unfold Bundled; decide, carried, by decide, rfl, found, ?_⟩
  rintro ⟨r, inList, member, only, -⟩
  rw [considerations_eq] at only
  have chosen := (only _ (mem_cons_self ..) r inList member).2 rfl
  have isThree := (considers_member carried inList member).1 (mem_filter.1 chosen).2
  obtain three : 3 = r.portNo := Option.some.inj isThree
  simp [Port.memberOf, bit, ← three] at member

end RouterApps.Bridge
