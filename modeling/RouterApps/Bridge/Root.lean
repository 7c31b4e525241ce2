/-
# Bridge.Root -- the root port over whole runs (br_stp.c, br_stp_timer.c, br_stp_if.c)

`br_root_selection` goes over the ports with the number of the best one so far.  What it ends with is a candidate of the
least rank (`root_port_least`): the ranks are compared field by field, in the order of the protocol.

If the bridge is not the root, `br_transmit_config` and `br_transmit_tcn` follow the pointer to the root port without a
test.  Messages, timers and the administrator come in any order, and ports come and go; the root port is in the list at
all times (`root_port_listed`).  A timer may expire at any time, whether it was set or not.
-/
import RouterApps.Bridge.Disabled

namespace RouterApps.Bridge

open List NetBridge

section

/-! ## The events -/

/-- `new_bridge_dev`, where the address is not set. -/
def newBridgeDev (hz : UInt32) : NetBridge where
  ports := []
  bridgeId := 0x8000000000000000
  designatedRoot := 0x8000000000000000
  rootPathCost := 0
  rootPort := 0
  maxAge := 20 * hz
  helloTime := 2 * hz
  forwardDelay := 15 * hz
  bridgeMaxAge := 20 * hz
  bridgeHelloTime := 2 * hz
  bridgeForwardDelay := 15 * hz
  stpEnabled := .no
  topologyChange := false
  topologyChangeDetected := false
  tcnTimer := ⟨false, 0⟩
  topologyChangeTimer := ⟨false, 0⟩
  sent := []
  numbered := nodup_nil
  fromOne := forall_mem_nil _

-- `up` is the flag `IFF_UP` of the bridge
variable (clock : Clock) (up : Bool) (br : NetBridge) (p : Port)

def brConfigurationUpdate : NetBridge := brDesignatedPortSelection (brRootSelection br)

def brBecomeRootBridge : NetBridge :=
  let br := brTopologyChangeDetection clock
    { br with maxAge := br.bridgeMaxAge, helloTime := br.bridgeHelloTime, forwardDelay := br.bridgeForwardDelay }
  let br := { br with tcnTimer := br.tcnTimer.del }
  if up then brConfigBpduGeneration clock br else br

def brSupersedesPortInfo (bpdu : ConfigBpdu) : Bool :=
  if bpdu.root < p.stp.designatedRoot then true
  else if bpdu.root > p.stp.designatedRoot then false
  else if bpdu.rootPathCost < p.stp.designatedCost then true
  else if bpdu.rootPathCost > p.stp.designatedCost then false
  else if bpdu.bridgeId < p.stp.designatedBridge then true
  else if bpdu.bridgeId > p.stp.designatedBridge then false
  else if bpdu.bridgeId ≠ br.bridgeId then true
  else bpdu.portId ≤ p.stp.designatedPort

def brRecordConfigInformation (bpdu : ConfigBpdu) : NetBridge :=
  br.modifyPort p.portNo fun stp =>
    { stp with
      designatedRoot := bpdu.root
      designatedCost := bpdu.rootPathCost
      designatedBridge := bpdu.bridgeId
      designatedPort := bpdu.portId
      messageAgeTimer := Timer.mod (clock.jiffies + (br.maxAge - bpdu.messageAge)) }

def brTransmitTcn : NetBridge :=
  { br.emit [.tcn br.rootPort] with tcnTimer := Timer.mod (clock.jiffies + br.bridgeHelloTime) }

def brReceivedConfigBpdu (bpdu : ConfigBpdu) : NetBridge :=
  if brSupersedesPortInfo br p bpdu then
    let wasRoot := brIsRootBridge br
    let br := brPortStateSelection clock (brConfigurationUpdate (brRecordConfigInformation clock br p bpdu))
    let br :=
      if !brIsRootBridge br && wasRoot && br.topologyChangeDetected then
        brTransmitTcn clock { br with topologyChangeTimer := br.topologyChangeTimer.del }
      else br
    if p.portNo = br.rootPort then
      let br := brConfigBpduGeneration clock
        { br with
          maxAge := bpdu.maxAge
          helloTime := bpdu.helloTime
          forwardDelay := bpdu.forwardDelay
          topologyChange := bpdu.topologyChange }
      if bpdu.topologyChangeAck then { br with topologyChangeDetected := false, tcnTimer := br.tcnTimer.del } else br
    else br
  else if brIsDesignatedPort br p then brTransmitConfig clock br p
  else br

def brReceivedTcnBpdu : NetBridge :=
  if brIsDesignatedPort br p then
    let br := (brTopologyChangeDetection clock br).modifyPort p.portNo fun stp => { stp with topologyChangeAck := true }
    brTransmitConfig clock br { p with stp.topologyChangeAck := true }
  else br

/-- `br_stp_rcv`, of a configuration message or of a topology change notification. -/
def brStpRcv (bpdu : Option ConfigBpdu) : NetBridge :=
  if br.stpEnabled ≠ .kernel || !up || p.stp.state = .disabled then br
  else bpdu.elim (brReceivedTcnBpdu clock br p) (brReceivedConfigBpdu clock br p)

/-- The end of the functions after which the bridge may be the root. -/
def NetBridge.settle (wasRoot : Bool) : NetBridge :=
  let br := brPortStateSelection clock (brConfigurationUpdate br)
  if brIsRootBridge br && !wasRoot then brBecomeRootBridge clock up br else br

def brMessageAgeTimerExpired : NetBridge :=
  if p.stp.state = .disabled then br else (brBecomeDesignatedPort br p).settle clock up (brIsRootBridge br)

def brStpEnablePort (portId : UInt16) : NetBridge :=
  brPortStateSelection clock (br.modifyPort p.portNo fun stp =>
    { stp with
      portId
      designatedRoot := br.designatedRoot
      designatedCost := br.rootPathCost
      designatedBridge := br.bridgeId
      designatedPort := portId
      state := .blocking
      topologyChangeAck := false
      configPending := false })

def brStpDisablePort : NetBridge :=
  ((brBecomeDesignatedPort br p).modifyPort p.portNo fun stp =>
    { stp with
      state := .disabled
      topologyChangeAck := false
      configPending := false
      messageAgeTimer := stp.messageAgeTimer.del
      forwardDelayTimer := stp.forwardDelayTimer.del
      holdTimer := stp.holdTimer.del }).settle clock up (brIsRootBridge br)

/-- The address of the bridge stands in the lower six octets of its id. -/
def sameAddr (id id' : UInt64) : Bool := (id ^^^ id') &&& 0xffffffffffff = 0

def withAddr (addr id : UInt64) : UInt64 := id &&& 0xffff000000000000 ||| addr &&& 0xffffffffffff

def withPrio (prio : UInt16) (id : UInt64) : UInt64 := prio.toUInt64 <<< 48 ||| id &&& 0xffffffffffff

def brStpChangeBridgeId (addr : UInt64) : NetBridge :=
  let renew id := if sameAddr id br.bridgeId then withAddr addr id else id
  ({ br with bridgeId := withAddr addr br.bridgeId }.modify (fun _ => true) fun stp =>
    { stp with designatedBridge := renew stp.designatedBridge, designatedRoot := renew stp.designatedRoot }).settle
      clock up (brIsRootBridge br)

def brStpSetBridgePriority (newprio : UInt16) : NetBridge :=
  let ports := br.modify (fun p => p.stp.state ≠ .disabled && brIsDesignatedPort br p) fun stp =>
    { stp with designatedBridge := withPrio newprio stp.designatedBridge }
  { ports with bridgeId := withPrio newprio br.bridgeId }.settle clock up (brIsRootBridge br)

def brStpSetPortPriority (portId : UInt16) : NetBridge :=
  let designatedPort := if brIsDesignatedPort br p then portId else p.stp.designatedPort
  let br := br.modifyPort p.portNo fun stp => { stp with portId, designatedPort }
  if br.bridgeId = p.stp.designatedBridge && portId < designatedPort then
    brPortStateSelection clock (brBecomeDesignatedPort br p)
  else br

/-- `helper` is whether the program for the protocol in user space was started. -/
def brStpSetEnabled (val helper : Bool) : NetBridge :=
  if val then
    if br.stpEnabled ≠ .no then br
    else if helper then { br with stpEnabled := .user }
    else brPortStateSelection clock { br with stpEnabled := .kernel }
  else { if br.stpEnabled = .user then brPortStateSelection clock br else br with stpEnabled := .no }

def NetBridge.listed : List Nat := br.ports.map Port.portNo

def NetBridge.filterPorts (keep : Port → Bool) : NetBridge :=
  { br with
    ports := br.ports.filter keep
    numbered := br.numbered.sublist (filter_sublist.map _)
    fromOne := fun p member => br.fromOne p (mem_of_mem_filter member) }

def NetBridge.addPort (nonzero : p.portNo ≠ 0) : NetBridge :=
  if free : p.portNo ∈ br.listed then br
  else
    { br with
      ports := p :: br.ports
      numbered := nodup_cons.2 ⟨free, br.numbered⟩
      fromOne := forall_mem_cons.2 ⟨nonzero, br.fromOne⟩ }

/-- What may happen to a port; `del_nbp` disables it and takes it out of the list. -/
inductive PortEvent
  | rcv (bpdu : Option ConfigBpdu)
  | messageAgeTimer
  | holdTimer
  | enable (portId : UInt16)
  | disable
  | setPathCost (pathCost : UInt32)
  | setPriority (portId : UInt16)
  | del

/-- What may happen to a bridge; `new_nbp` has given a new port a number that is free. -/
inductive BridgeEvent
  | port (portNo : Nat) (event : PortEvent)
  | forwardDelayTimer (portNo : Nat)
  | helloTimer
  | tcnTimer
  | topologyChangeTimer
  | setPriority (newprio : UInt16)
  | changeId (addr : UInt64)
  | setEnabled (val helper : Bool)
  | newPort (p : Port) (free : p.portNo ≠ 0)

def PortEvent.happens : PortEvent → NetBridge
  | rcv bpdu => brStpRcv clock up br p bpdu
  | messageAgeTimer => brMessageAgeTimerExpired clock up br p
  | holdTimer => if p.stp.configPending then brTransmitConfig clock br p else br
  | enable portId => brStpEnablePort clock br p portId
  | disable => brStpDisablePort clock up br p
  | setPathCost pathCost =>
    brPortStateSelection clock (brConfigurationUpdate (br.modifyPort p.portNo fun stp => { stp with pathCost }))
  | setPriority portId => brStpSetPortPriority clock br p portId
  | del => (brStpDisablePort clock up br p).filterPorts fun q => q.portNo ≠ p.portNo

def BridgeEvent.happens : BridgeEvent → NetBridge
  | port portNo event => (brGetPort br portNo).elim br fun p => event.happens clock up br p
  | forwardDelayTimer portNo => brForwardDelayTimerExpired clock br portNo
  | helloTimer => if up then brConfigBpduGeneration clock br else br
  | tcnTimer => if up then brTransmitTcn clock br else br
  | topologyChangeTimer => { br with topologyChangeDetected := false, topologyChange := false }
  | setPriority newprio => brStpSetBridgePriority clock up br newprio
  | changeId addr => brStpChangeBridgeId clock up br addr
  | setEnabled val helper => brStpSetEnabled clock br val helper
  | newPort p nonzero => br.addPort p nonzero

end

/-! ## The selection -/

variable {br br' : NetBridge} {p q : Port} {clock : Clock} {up : Bool}

/-- What the selection compares, the first difference first. -/
def Port.rank (p : Port) : ℕ ×ₗ ℕ ×ₗ ℕ ×ₗ ℕ ×ₗ ℕ :=
  toLex (p.stp.designatedRoot.toNat, toLex ((p.stp.designatedCost + p.stp.pathCost).toNat,
    toLex (p.stp.designatedBridge.toNat, toLex (p.stp.designatedPort.toNat, p.stp.portId.toNat))))

/-- A port that can be the root port. -/
structure NetBridge.Candidate (br : NetBridge) (p : Port) : Prop where
  listed : p ∈ br.ports
  considered : br.skips p = false
  enabled : p.stp.state ≠ .disabled
  notDesignated : brIsDesignatedPort br p = false
  better : p.stp.designatedRoot < br.bridgeId

/-- The root port is a candidate, and none of these ports is better. -/
structure Least (br : NetBridge) (seen : List Port) (rootPort : Nat) : Prop where
  candidate : rootPort ≠ 0 → ∃ r, brGetPort br rootPort = some r ∧ br.Candidate r
  least : ∀ q ∈ seen, br.Candidate q → ∃ r, brGetPort br rootPort = some r ∧ r.rank ≤ q.rank

theorem lex_iff {α : Type} [LT α] {a b : ℕ} {x y : α} {rest : Bool} (later : rest ↔ x < y) :
    (if a < b then true else if b < a then false else rest) ↔ toLex (a, x) < toLex (b, y) := by
  rw [Prod.Lex.toLex_lt_toLex]
  split_ifs with less more
  · simp [less]
  · simp [less, more.ne']
  · simp [later, Nat.le_antisymm (Nat.le_of_not_lt more) (Nat.le_of_not_lt less)]

theorem brGetPort_zero : brGetPort br 0 = none := find?_eq_none.2 fun q member => by simpa using br.fromOne q member

/-- A candidate takes the place of a worse one. -/
theorem shouldBecomeRootPort_iff (member : p ∈ br.ports) (taken : br.skips p = false) {rootPort : Nat}
    (known : rootPort ≠ 0 → ∃ r, brGetPort br rootPort = some r ∧ br.Candidate r) :
    brShouldBecomeRootPort br p rootPort ↔
      br.Candidate p ∧ ∀ r, brGetPort br rootPort = some r → p.rank < r.rank := by
  unfold brShouldBecomeRootPort
  split
  · rename_i unfit
    exact iff_of_false nofun fun chosen => by simp [chosen.1.enabled, chosen.1.notDesignated] at unfit
  split
  · rename_i worse
    exact iff_of_false nofun fun chosen => absurd worse (UInt64.not_le.2 chosen.1.better)
  rename_i fit better
  simp only [Bool.or_eq_true, decide_eq_true_eq, not_or, Bool.not_eq_true] at fit
  simp only [show br.Candidate p from ⟨member, taken, fit.1, fit.2, UInt64.not_le.1 better⟩, true_and]
  by_cases none : rootPort = 0
  · simp [none, brGetPort_zero]
  · obtain ⟨r, found, -⟩ := known none
    simp only [none, found, Option.some.injEq, forall_eq', gt_iff_lt, UInt64.lt_iff_toNat_lt, UInt32.lt_iff_toNat_lt,
      UInt16.lt_iff_toNat_lt, if_false]
    exact lex_iff (lex_iff (lex_iff (lex_iff decide_eq_true_iff)))

/-- A port is left as it is no better. -/
theorem Least.visit {seen : List Port} {rootPort : Nat} (least : Least br seen rootPort)
    (worse : br.Candidate p → ∃ r, brGetPort br rootPort = some r ∧ r.rank ≤ p.rank) : Least br (seen ++ [p]) rootPort where
  candidate := least.candidate
  least := forall_mem_append.2 ⟨least.least, forall_mem_singleton.2 worse⟩

/-- The loop, from some port on. -/
theorem rootSelection_from (portNos : List Nat) {seen : List Port} {rootPort : Nat} (least : Least br seen rootPort) :
    Least br (seen ++ portNos.filterMap (brGetPort br)) (forEachPort Prod.fst (fun p (br, rootPort) =>
      if brShouldBecomeRootPort br p rootPort then (br, p.portNo) else (br, rootPort)) portNos (br, rootPort)).1.2 := by
  induction portNos generalizing seen rootPort with
  | nil => simpa [forEachPort] using least
  | cons portNo rest ih =>
    cases found : brGetPort br portNo with
    | none => simpa [forEachPort, found] using ih least
    | some p =>
      have listed := mem_of_find?_eq_some found
      rw [filterMap_cons_some found, append_cons]
      simp only [forEachPort, found]
      split_ifs with skipped should
      · exact ih (least.visit fun fits => absurd skipped (by simp [fits.considered]))
      all_goals rw [shouldBecomeRootPort_iff listed (by simpa using skipped) least.candidate] at should
      · have own := brGetPort_of_mem listed
        refine ih ⟨fun _ => ⟨p, own, should.1⟩, fun q member fits => ⟨p, own, ?_⟩⟩
        obtain before | rfl := (mem_append.1 member).imp_right mem_singleton.1
        · obtain ⟨r, there, le⟩ := least.least q before fits
          exact (should.2 r there).le.trans le
        · exact le_rfl
      · exact ih (least.visit fun fits => by simpa [fits] using should)

theorem rootSelection_loop (br : NetBridge) : Least br br.ports (rootSelectionLoop br).1.2 := by
  have all := rootSelection_from (br.ports.map Port.portNo) (⟨by simp, by simp⟩ : Least br [] 0)
  refine ⟨all.candidate, fun q member => all.least q (mem_filterMap.2 ?_)⟩
  exact ⟨q.portNo, mem_map_of_mem member, brGetPort_of_mem member⟩

/-- What only the selection and the list of ports determine. -/
structure RootInfo where
  rootPort : Nat
  designatedRoot : UInt64
  rootPathCost : UInt32
  bridgeId : UInt64
  listed : List Nat

def NetBridge.info (br : NetBridge) : RootInfo :=
  ⟨br.rootPort, br.designatedRoot, br.rootPathCost, br.bridgeId, br.listed⟩

/-- What the selection is to end with: the bridge is the root, or the root port is a candidate of the least rank. -/
inductive Selects (br : NetBridge) : RootInfo → Prop
  | root (none : ∀ q, ¬br.Candidate q) : Selects br ⟨0, br.bridgeId, 0, br.bridgeId, br.listed⟩
  | port (p : Port) (candidate : br.Candidate p) (least : ∀ q, br.Candidate q → p.rank ≤ q.rank) :
      Selects br ⟨p.portNo, p.stp.designatedRoot, p.stp.designatedCost + p.stp.pathCost, br.bridgeId, br.listed⟩

theorem rootSelection_selects (br : NetBridge) : Selects br (brRootSelection br).info := by
  have least := rootSelection_loop br
  dsimp only [brRootSelection]
  generalize (rootSelectionLoop br).1.2 = rootPort at least ⊢
  by_cases none : rootPort = 0
  · subst none
    refine .root fun q fits => ?_
    obtain ⟨r, found, -⟩ := least.least q fits.listed fits
    cases brGetPort_zero.symm.trans found
  · obtain ⟨p, found, fits⟩ := least.candidate none
    obtain rfl : p.portNo = rootPort := by simpa using find?_some found
    simp only [none, if_false, found]
    refine .port p fits fun q other => ?_
    obtain ⟨r, same, le⟩ := least.least q other.listed other
    cases found.symm.trans same
    exact le

/-! ## What only the selection changes -/

variable {info : RootInfo}

theorem ite_info {c : Prop} [Decidable c] (pos : br.info = info)
    (neg : br'.info = info) : (if c then br else br').info = info := by
  split <;> assumption

@[simp] theorem modify_info (which : Port → Bool) (f : PortStp → PortStp) : (br.modify which f).info = br.info := by
  have same := congrArg (map Prod.fst) (modify_wiring br which f)
  simp only [wiring, List.map_map] at same
  exact congrArg (RootInfo.mk br.rootPort br.designatedRoot br.rootPathCost br.bridgeId) same

@[simp] theorem spread_info (state : State) : (br.spread p state).info = br.info := by
  unfold spread
  split
  · exact modify_info _ _
  · rfl

@[simp] theorem brTopologyChangeDetection_info : (brTopologyChangeDetection clock br).info = br.info := by
  unfold brTopologyChangeDetection
  split_ifs <;> rfl

@[simp] theorem emit_info (sent : List Sent) : (br.emit sent).info = br.info := rfl

@[simp] theorem modifyPort_info (portNo : Nat) (f : PortStp → PortStp) : (br.modifyPort portNo f).info = br.info :=
  modify_info _ _

@[simp] theorem brTransmitConfig_info : (brTransmitConfig clock br p).info = br.info := by
  unfold brTransmitConfig
  split_ifs <;> simp

@[simp] theorem brMakeBlocking_info : (brMakeBlocking clock br p).info = br.info := by
  unfold brMakeBlocking
  split_ifs <;> simp

@[simp] theorem brMakeForwarding_info : (brMakeForwarding clock br p).info = br.info := by
  unfold brMakeForwarding
  split_ifs <;> simp

theorem forEachPort_info {body : Port → NetBridge → NetBridge} (keeps : ∀ p br, (body p br).info = br.info)
    (portNos : List Nat) : (forEachPort id body portNos br).1.info = br.info :=
  forEachPort_invariant (fun s => s.info = br.info) (fun s p same _ _ => (keeps p s).trans same) portNos br rfl

@[simp] theorem brPortStateSelection_info : (brPortStateSelection clock br).info = br.info := by
  unfold brPortStateSelection
  split
  · rfl
  · refine forEachPort_info (fun p br => ?_) _
    unfold selectPortState
    split_ifs <;> simp

@[simp] theorem brConfigBpduGeneration_info : (brConfigBpduGeneration clock br).info = br.info := by
  refine forEachPort_info (fun p br => ?_) _
  split <;> simp

@[simp] theorem brBecomeDesignatedPort_info : (brBecomeDesignatedPort br p).info = br.info := modifyPort_info _ _

@[simp] theorem brBecomeRootBridge_info : (brBecomeRootBridge clock up br).info = br.info :=
  ite_info (brConfigBpduGeneration_info.trans brTopologyChangeDetection_info) brTopologyChangeDetection_info

theorem brForwardDelayTimerExpired_info (portNo : Nat) : (brForwardDelayTimerExpired clock br portNo).info = br.info := by
  unfold brForwardDelayTimerExpired delayPort
  split
  · rfl
  · split <;> simp
    split <;> simp

@[simp] theorem brConfigurationUpdate_info : (brConfigurationUpdate br).info = (brRootSelection br).info := by
  refine forEachPort_info (fun p br => ?_) _
  split <;> simp

@[simp] theorem settle_info {wasRoot : Bool} : (br.settle clock up wasRoot).info = (brRootSelection br).info := by
  dsimp only [settle]
  split <;> simp

/-- **After an update the root port is a candidate of the least rank**, and the bridge is the root if there is none. -/
theorem root_port_least (br : NetBridge) : Selects br (brConfigurationUpdate br).info :=
  brConfigurationUpdate_info ▸ rootSelection_selects br

/-! ## Every run -/

/-- The bridge is the root, or the root port is in the list. -/
def RootListed (info : RootInfo) : Prop :=
  info.rootPort = 0 ∧ info.designatedRoot = info.bridgeId ∨
    info.rootPort ∈ info.listed ∧ info.designatedRoot < info.bridgeId

theorem RootListed.of_info (known : RootListed br.info) (same : br'.info = br.info) : RootListed br'.info := same ▸ known

theorem Selects.rootListed (selects : Selects br info) : RootListed info := by
  cases selects with
  | root none => exact .inl ⟨rfl, rfl⟩
  | port p fits least => exact .inr ⟨mem_map_of_mem fits.listed, fits.better⟩

theorem RootListed.of_selection (same : br'.info = (brRootSelection br).info) : RootListed br'.info :=
  same ▸ (rootSelection_selects br).rootListed

/-- A port that is disabled is not selected. -/
theorem Selects.ne_of_disabled {portNo : Nat} (selects : Selects br info) (nonzero : portNo ≠ 0)
    (disabled : ∀ q ∈ br.ports, q.portNo = portNo → q.stp.state = .disabled) : info.rootPort ≠ portNo := by
  cases selects with
  | root none => exact nonzero.symm
  | port r fits least => exact fun number => fits.enabled (disabled r fits.listed number)

theorem brStpDisablePort_rootPort (member : p ∈ br.ports) : (brStpDisablePort clock up br p).info.rootPort ≠ p.portNo := by
  rw [brStpDisablePort, settle_info]
  refine (rootSelection_selects _).ne_of_disabled (br.fromOne p member) fun q inside number => ?_
  obtain ⟨old, -, rfl⟩ := mem_map.1 inside
  split_ifs at number with own
  · rw [if_pos own]
  · exact absurd (decide_eq_true number) own

theorem RootListed.filterPorts (known : RootListed br.info) {portNo : Nat} (other : br.info.rootPort ≠ portNo) :
    RootListed (br.filterPorts fun q => q.portNo ≠ portNo).info := by
  refine known.imp_right (And.imp_left fun inside => ?_)
  obtain ⟨q, inside, number⟩ := mem_map.1 inside
  exact mem_map.2 ⟨q, mem_filter.2 ⟨inside, decide_eq_true (number ▸ other)⟩, number⟩

theorem RootListed.receivedConfigBpdu (known : RootListed br.info) (bpdu : ConfigBpdu) :
    RootListed (brReceivedConfigBpdu clock br p bpdu).info := by
  dsimp only [brReceivedConfigBpdu]
  split
  · have same : (brPortStateSelection clock (brConfigurationUpdate (brRecordConfigInformation clock br p bpdu))).info =
        (brRootSelection (brRecordConfigInformation clock br p bpdu)).info := by simp
    generalize brPortStateSelection clock _ = selected at same ⊢
    refine .of_selection (Eq.trans ?_ same)
    exact ite_info (ite_info (brConfigBpduGeneration_info.trans (ite_info rfl rfl))
      (brConfigBpduGeneration_info.trans (ite_info rfl rfl))) (ite_info rfl rfl)
  · exact known.of_info (ite_info brTransmitConfig_info rfl)

theorem RootListed.portEvent (known : RootListed br.info) (member : p ∈ br.ports) (event : PortEvent) :
    RootListed (event.happens clock up br p).info := by
  cases event with
  | rcv bpdu =>
    dsimp only [PortEvent.happens, brStpRcv]
    split
    · exact known
    · cases bpdu with
      | some bpdu => exact known.receivedConfigBpdu bpdu
      | none => exact known.of_info (ite_info (by simp) rfl)
  | messageAgeTimer =>
    dsimp only [PortEvent.happens, brMessageAgeTimerExpired]
    split
    · exact known
    · exact .of_selection settle_info
  | holdTimer => exact known.of_info (ite_info brTransmitConfig_info rfl)
  | enable portId => exact known.of_info (by simp [PortEvent.happens, brStpEnablePort])
  | disable => exact .of_selection settle_info
  | setPathCost pathCost => exact .of_selection (brPortStateSelection_info.trans brConfigurationUpdate_info)
  | setPriority portId => exact known.of_info (ite_info (by simp) (by simp))
  | del => exact (RootListed.of_selection settle_info).filterPorts (brStpDisablePort_rootPort member)

theorem RootListed.bridgeEvent (known : RootListed br.info) (event : BridgeEvent) :
    RootListed (event.happens clock up br).info := by
  cases event with
  | port portNo event =>
    dsimp only [BridgeEvent.happens]
    cases found : brGetPort br portNo with
    | none => exact known
    | some p => exact known.portEvent (mem_of_find?_eq_some found) event
  | forwardDelayTimer portNo => exact known.of_info (brForwardDelayTimerExpired_info portNo)
  | helloTimer => exact known.of_info (ite_info brConfigBpduGeneration_info rfl)
  | tcnTimer => exact known.of_info (ite_info rfl rfl)
  | topologyChangeTimer => exact known
  | setPriority newprio | changeId addr => exact .of_selection settle_info
  | setEnabled val helper =>
    refine known.of_info (ite_info (ite_info rfl (ite_info rfl brPortStateSelection_info)) ?_)
    exact ite_info brPortStateSelection_info rfl
  | newPort p nonzero =>
    dsimp only [BridgeEvent.happens, addPort]
    split
    · exact known
    · exact known.imp_right (And.imp_left (mem_cons_of_mem _))

/-- **In every run the bridge is the root exactly if it has no root port, and otherwise the root port is in the list**, so
that a pointer to it can be followed. -/
theorem root_port_listed (hz : UInt32) (events : List (Clock × Bool × BridgeEvent)) :
    let br := events.foldl (fun br (clock, up, event) => event.happens clock up br) (newBridgeDev hz)
    (brIsRootBridge br ↔ br.rootPort = 0) ∧ (brIsRootBridge br = false → (brGetPort br br.rootPort).isSome) := by
  intro br
  have known : RootListed br.info :=
    foldlRecOn (motive := fun br : NetBridge => RootListed br.info) events _ (.inl ⟨rfl, rfl⟩) fun br known event _ => known.bridgeEvent event.2.2
  obtain ⟨none, root⟩ | ⟨inside, less⟩ := known
  · exact ⟨iff_of_true (decide_eq_true root.symm) none, fun other => by simp_all [brIsRootBridge, info]⟩
  · obtain ⟨q, member, number⟩ := mem_map.1 inside
    have other : brIsRootBridge br = false := decide_eq_false (UInt64.ne_of_lt less).symm
    refine ⟨iff_of_false (by simp [other]) fun none => br.fromOne q member (number.trans none), fun _ => ?_⟩
    exact Option.isSome_of_eq_some (number ▸ brGetPort_of_mem member)

end RouterApps.Bridge
