/-
# Bridge.Stp -- the spanning tree of the bridge (br_stp.c)

The loops of the spanning tree protocol over the ports of a bridge, with the trunks that this kernel
adds: a port carries a map of the ports it is bundled with, in which bit `n - 1` stands for port `n`,
and each loop considers one port of a trunk only, and says which.

A pointer to a port is its number.  What the protocol never changes of a port is apart from what it
does change.  A bridge identifier is a big-endian number.  `unsigned long` has 32 bits, and a shift
past them leaves no bit.
-/
import Mathlib

namespace RouterApps.Bridge

/-! ## Data -/

/-- `BR_STATE_...` -/
inductive State
  | disabled
  | listening
  | learning
  | forwarding
  | blocking
deriving DecidableEq

/-- `struct timer_list`. -/
structure Timer where
  pending : Bool
  expires : UInt32
deriving DecidableEq

def Timer.mod (expires : UInt32) : Timer := ⟨true, expires⟩

def Timer.del (timer : Timer) : Timer := { timer with pending := false }

/-- What the protocol keeps for a port. -/
structure PortStp where
  state : State
  portId : UInt16
  pathCost : UInt32
  designatedRoot : UInt64
  designatedCost : UInt32
  designatedBridge : UInt64
  designatedPort : UInt16
  topologyChangeAck : Bool
  configPending : Bool
  forwardDelayTimer : Timer
  holdTimer : Timer
  messageAgeTimer : Timer
deriving DecidableEq

/-- `struct net_bridge_port`. -/
structure Port where
  portNo : Nat
  trunkMap : BitVec 32
  stp : PortStp
deriving DecidableEq

inductive StpEnabled
  | no
  | kernel
  | user
deriving DecidableEq

/-- `struct br_config_bpdu`. -/
structure ConfigBpdu where
  topologyChange : Bool
  topologyChangeAck : Bool
  root : UInt64
  rootPathCost : UInt32
  bridgeId : UInt64
  portId : UInt16
  messageAge : UInt32
  maxAge : UInt32
  helloTime : UInt32
  forwardDelay : UInt32
deriving DecidableEq

/-- What leaves the bridge: frames on a port, and port states for the switch chip. -/
inductive Sent
  | config (portNo : Nat) (bpdu : ConfigBpdu)
  | tcn (portNo : Nat)
  | switchState (port : Nat) (state : State)
deriving DecidableEq

/-- `struct net_bridge`, and what was sent.  `port_no` is unique and not 0 (`find_portno`). -/
structure NetBridge where
  ports : List Port
  bridgeId : UInt64
  designatedRoot : UInt64
  rootPathCost : UInt32
  rootPort : Nat
  maxAge : UInt32
  helloTime : UInt32
  forwardDelay : UInt32
  bridgeMaxAge : UInt32
  bridgeHelloTime : UInt32
  bridgeForwardDelay : UInt32
  stpEnabled : StpEnabled
  topologyChange : Bool
  topologyChangeDetected : Bool
  tcnTimer : Timer
  topologyChangeTimer : Timer
  sent : List Sent
  numbered : (ports.map Port.portNo).Nodup
  fromOne : ∀ p ∈ ports, p.portNo ≠ 0

structure Clock where
  jiffies : UInt32
  hz : UInt32
  roundJiffies : UInt32 → UInt32

/-- A write through pointers to the ports that `which` selects. -/
def NetBridge.modify (br : NetBridge) (which : Port → Bool) (f : PortStp → PortStp) : NetBridge :=
  { br with
    ports := br.ports.map fun p => if which p then { p with stp := f p.stp } else p
    numbered := by
      have same : (br.ports.map fun p => if which p then { p with stp := f p.stp } else p).map Port.portNo =
          br.ports.map Port.portNo := by
        rw [List.map_map]
        refine List.map_congr_left fun p _ => ?_
        simp only [Function.comp]
        split <;> rfl
      rw [same]
      exact br.numbered
    fromOne := by
      intro p member
      obtain ⟨old, inList, rfl⟩ := List.mem_map.1 member
      have positive := br.fromOne old inList
      split
      · exact positive
      · exact positive }

def NetBridge.emit (br : NetBridge) (sent : List Sent) : NetBridge := { br with sent := br.sent ++ sent }

def NetBridge.modifyPort (br : NetBridge) (portNo : Nat) (f : PortStp → PortStp) : NetBridge :=
  br.modify (fun p => p.portNo = portNo) f

/-! ## Trunks -/

/-- Bit `n` of a trunk map, as `trunk_map & (1 << n)` has it. -/
def bit (trunkMap : BitVec 32) (n : Nat) : Bool := trunkMap.getLsbD n

/-- `trunk_first_port_no`; `none` for -1. -/
def trunkFirstPortNo (br : NetBridge) (trunkMap : BitVec 32) : Option Nat :=
  (br.ports.find? fun p => bit trunkMap p.portNo).map Port.portNo

def brTrunkMemberPortStateSelection (br : NetBridge) (trunkMap : BitVec 32) (state : State) : NetBridge :=
  let members := br.ports.filter fun p => bit trunkMap (p.portNo - 1)
  (br.emit (members.map fun p => .switchState (p.portNo - 1) state)).modify
    (fun p => bit trunkMap (p.portNo - 1)) fun stp => { stp with state := state }

/-- The test at the head of each loop. -/
def NetBridge.skips (br : NetBridge) (p : Port) : Bool :=
  p.trunkMap ≠ 0 && trunkFirstPortNo br p.trunkMap ≠ some p.portNo

def brGetPort (br : NetBridge) (portNo : Nat) : Option Port := br.ports.find? fun p => p.portNo = portNo

/-- A loop over the ports with these numbers; the second result lists the ports that were considered. -/
def forEachPort {σ : Type} (bridge : σ → NetBridge) (body : Port → σ → σ) : List Nat → σ → σ × List Nat
  | [], s => (s, [])
  | portNo :: rest, s =>
    match brGetPort (bridge s) portNo with
    | none => forEachPort bridge body rest s
    | some p =>
      if (bridge s).skips p then forEachPort bridge body rest s
      else
        let (s, considered) := forEachPort bridge body rest (body p s)
        (s, portNo :: considered)

/-! ## The root port -/

def brIsDesignatedPort (br : NetBridge) (p : Port) : Bool :=
  p.stp.designatedBridge = br.bridgeId && p.stp.designatedPort = p.stp.portId

def brIsRootBridge (br : NetBridge) : Bool := br.bridgeId = br.designatedRoot

def brShouldBecomeRootPort (br : NetBridge) (p : Port) (rootPort : Nat) : Bool :=
  if p.stp.state = .disabled || brIsDesignatedPort br p then false
  else if br.bridgeId ≤ p.stp.designatedRoot then false
  else if rootPort = 0 then true
  else
    match brGetPort br rootPort with
    | none => false
    | some rp =>
      if p.stp.designatedRoot < rp.stp.designatedRoot then true
      else if p.stp.designatedRoot > rp.stp.designatedRoot then false
      else if p.stp.designatedCost + p.stp.pathCost < rp.stp.designatedCost + rp.stp.pathCost then true
      else if p.stp.designatedCost + p.stp.pathCost > rp.stp.designatedCost + rp.stp.pathCost then false
      else if p.stp.designatedBridge < rp.stp.designatedBridge then true
      else if p.stp.designatedBridge > rp.stp.designatedBridge then false
      else if p.stp.designatedPort < rp.stp.designatedPort then true
      else if p.stp.designatedPort > rp.stp.designatedPort then false
      else p.stp.portId < rp.stp.portId

/-- The loop of `br_root_selection`. -/
def rootSelectionLoop (br : NetBridge) : (NetBridge × Nat) × List Nat :=
  forEachPort Prod.fst (fun p (br, rootPort) => if brShouldBecomeRootPort br p rootPort then (br, p.portNo) else (br, rootPort))
    (br.ports.map Port.portNo) (br, 0)

def brRootSelection (br : NetBridge) : NetBridge :=
  let rootPort := (rootSelectionLoop br).1.2
  if rootPort = 0 then { br with rootPort := rootPort, designatedRoot := br.bridgeId, rootPathCost := 0 }
  else
    match brGetPort br rootPort with
    -- the loop takes port numbers from the list, so that the port is there
    | none => { br with rootPort := rootPort }
    | some p =>
      { br with
        rootPort := rootPort
        designatedRoot := p.stp.designatedRoot
        rootPathCost := p.stp.designatedCost + p.stp.pathCost }

/-! ## Designated ports -/

def brShouldBecomeDesignatedPort (br : NetBridge) (p : Port) : Bool :=
  if brIsDesignatedPort br p then true
  else if p.stp.designatedRoot ≠ br.designatedRoot then true
  else if br.rootPathCost < p.stp.designatedCost then true
  else if br.rootPathCost > p.stp.designatedCost then false
  else if br.bridgeId < p.stp.designatedBridge then true
  else if br.bridgeId > p.stp.designatedBridge then false
  else p.stp.portId < p.stp.designatedPort

def brBecomeDesignatedPort (br : NetBridge) (p : Port) : NetBridge :=
  br.modifyPort p.portNo fun stp =>
    { stp with
      designatedRoot := br.designatedRoot
      designatedCost := br.rootPathCost
      designatedBridge := br.bridgeId
      designatedPort := stp.portId }

/-- The loop of `br_designated_port_selection`. -/
def designatedPortSelectionLoop (br : NetBridge) : NetBridge × List Nat :=
  forEachPort id (fun p br =>
      if p.stp.state ≠ .disabled && brShouldBecomeDesignatedPort br p then brBecomeDesignatedPort br p else br)
    (br.ports.map Port.portNo) br

def brDesignatedPortSelection (br : NetBridge) : NetBridge := (designatedPortSelectionLoop br).1

/-! ## Configuration messages -/

def messageAgeIncr (hz : UInt32) : UInt32 := if hz < 256 then 1 else hz / 256

/-- The message of `br_transmit_config`. -/
def configBpdu (clock : Clock) (br : NetBridge) (p : Port) : ConfigBpdu where
  topologyChange := br.topologyChange
  topologyChangeAck := p.stp.topologyChangeAck
  root := br.designatedRoot
  rootPathCost := br.rootPathCost
  bridgeId := br.bridgeId
  portId := p.stp.portId
  messageAge :=
    if brIsRootBridge br then 0
    else
      match brGetPort br br.rootPort with
      | none => 0
      | some root => br.maxAge - (root.stp.messageAgeTimer.expires - clock.jiffies) + messageAgeIncr clock.hz
  maxAge := br.maxAge
  helloTime := br.helloTime
  forwardDelay := br.forwardDelay

def brTransmitConfig (clock : Clock) (br : NetBridge) (p : Port) : NetBridge :=
  if p.stp.holdTimer.pending then br.modifyPort p.portNo fun stp => { stp with configPending := true }
  else if (configBpdu clock br p).messageAge < br.maxAge then
    (br.emit [.config p.portNo (configBpdu clock br p)]).modifyPort p.portNo fun stp =>
      { stp with
        topologyChangeAck := false
        configPending := false
        holdTimer := Timer.mod (clock.roundJiffies (clock.jiffies + clock.hz)) }
  else br

/-- The loop of `br_config_bpdu_generation`. -/
def configBpduGenerationLoop (clock : Clock) (br : NetBridge) : NetBridge × List Nat :=
  forEachPort id (fun p br =>
      if p.stp.state ≠ .disabled && brIsDesignatedPort br p then brTransmitConfig clock br p else br)
    (br.ports.map Port.portNo) br

def brConfigBpduGeneration (clock : Clock) (br : NetBridge) : NetBridge := (configBpduGenerationLoop clock br).1

/-! ## Port states -/

def brTopologyChangeDetection (clock : Clock) (br : NetBridge) : NetBridge :=
  if br.stpEnabled ≠ .kernel then br
  else if brIsRootBridge br then
    { br with
      topologyChange := true
      topologyChangeTimer := Timer.mod (clock.jiffies + br.bridgeForwardDelay + br.bridgeMaxAge)
      topologyChangeDetected := true }
  else if !br.topologyChangeDetected then
    { br.emit [.tcn br.rootPort] with
      tcnTimer := Timer.mod (clock.jiffies + br.bridgeHelloTime)
      topologyChangeDetected := true }
  else br

def NetBridge.spread (br : NetBridge) (p : Port) (state : State) : NetBridge :=
  if p.trunkMap ≠ 0 then brTrunkMemberPortStateSelection br p.trunkMap state else br

def brMakeBlocking (clock : Clock) (br : NetBridge) (p : Port) : NetBridge :=
  if p.stp.state ≠ .disabled && p.stp.state ≠ .blocking then
    let br := if p.stp.state = .forwarding || p.stp.state = .learning then brTopologyChangeDetection clock br else br
    let br := (br.emit [.switchState (p.portNo - 1) .blocking]).modifyPort p.portNo fun stp =>
      { stp with state := .blocking, forwardDelayTimer := stp.forwardDelayTimer.del }
    br.spread p .blocking
  else br

/-- The state of a port that leaves the blocking state. -/
def unblockedState (br : NetBridge) : State :=
  if br.forwardDelay = 0 then .forwarding else if br.stpEnabled = .kernel then .listening else .learning

def brMakeForwarding (clock : Clock) (br : NetBridge) (p : Port) : NetBridge :=
  if p.stp.state ≠ .blocking then br
  else
    let state := unblockedState br
    let br' := if br.forwardDelay = 0 then brTopologyChangeDetection clock br else br
    let br' := (br'.emit [.switchState (p.portNo - 1) state]).modifyPort p.portNo fun stp =>
      { stp with
        state := state
        forwardDelayTimer :=
          if br.forwardDelay = 0 then stp.forwardDelayTimer.del else Timer.mod (clock.jiffies + br.forwardDelay) }
    br'.spread p state

/-- The body of the loop of `br_port_state_selection`. -/
def selectPortState (clock : Clock) (p : Port) (br : NetBridge) : NetBridge :=
  if p.stp.state = .disabled then br
  else if p.portNo = br.rootPort then
    let br := br.modifyPort p.portNo fun stp => { stp with configPending := false, topologyChangeAck := false }
    brMakeForwarding clock br p
  else if brIsDesignatedPort br p then
    let br := br.modifyPort p.portNo fun stp => { stp with messageAgeTimer := stp.messageAgeTimer.del }
    brMakeForwarding clock br p
  else
    let br := br.modifyPort p.portNo fun stp => { stp with configPending := false, topologyChangeAck := false }
    brMakeBlocking clock br p

/-- The loop of `br_port_state_selection`. -/
def portStateSelectionLoop (clock : Clock) (br : NetBridge) : NetBridge × List Nat :=
  forEachPort id (selectPortState clock) (br.ports.map Port.portNo) br

def brPortStateSelection (clock : Clock) (br : NetBridge) : NetBridge :=
  if br.stpEnabled = .user then br else (portStateSelectionLoop clock br).1

end RouterApps.Bridge
