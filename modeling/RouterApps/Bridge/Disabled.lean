/-
# Bridge.Disabled -- disabled ports of a trunk (br_stp.c, br_stp_timer.c)

A port that gets a new state, or whose forward delay timer expires, gives its state to all ports of its
trunk map, whatever their state is.  A disabled port in the map of one that is not is woken up.

As long as no such pair of ports is reached, disabled ports stay disabled; a pair that is reached is one
timer away from a disabled port that wakes up (`disabled_stay_iff`).
-/
import RouterApps.Bridge.Trunk

namespace RouterApps.Bridge

open List NetBridge

/-! ## The timer -/

def brIsDesignatedForSomePort (br : NetBridge) : Bool :=
  br.ports.any fun p => p.stp.state ≠ .disabled && p.stp.designatedBridge = br.bridgeId

/-- The state of a port after its timer has expired. -/
def State.delayed : State → State
  | .listening => .learning
  | .learning => .forwarding
  | state => state

/-- The port itself when its timer expires. -/
def delayPort (clock : Clock) (br : NetBridge) (p : Port) : NetBridge :=
  match p.stp.state with
  | .listening =>
    br.modifyPort p.portNo fun stp =>
      { stp with state := .learning, forwardDelayTimer := Timer.mod (clock.jiffies + br.forwardDelay) }
  | .learning =>
    let br := br.modifyPort p.portNo fun stp => { stp with state := .forwarding }
    if brIsDesignatedForSomePort br then brTopologyChangeDetection clock br else br
  | _ => br

/-- `br_forward_delay_timer_expired`, for the port with this number. -/
def brForwardDelayTimerExpired (clock : Clock) (br : NetBridge) (portNo : Nat) : NetBridge :=
  match brGetPort br portNo with
  | none => br
  | some p =>
    let br := delayPort clock br p
    (br.emit [.switchState (p.portNo - 1) p.stp.state.delayed]).spread p p.stp.state.delayed

/-! ## Runs -/

/-- What changes port states. -/
inductive StpEvent where
  | portStateSelection (clock : Clock)
  | forwardDelayTimerExpired (clock : Clock) (portNo : Nat)

def NetBridge.after (br : NetBridge) : StpEvent → NetBridge
  | .portStateSelection clock => brPortStateSelection clock br
  | .forwardDelayTimerExpired clock portNo => brForwardDelayTimerExpired clock br portNo

def NetBridge.run (br : NetBridge) (events : List StpEvent) : NetBridge := events.foldl after br

def KeepsDisabled (br br' : NetBridge) : Prop :=
  ∀ q ∈ br.ports, q.stp.state = .disabled → ∀ q' ∈ br'.ports, q'.portNo = q.portNo → q'.stp.state = .disabled

/-- A port with a disabled port in its map is disabled. -/
def Separate (br : NetBridge) : Prop :=
  ∀ p ∈ br.ports, ∀ q ∈ br.ports, q.memberOf p.trunkMap → q.stp.state = .disabled → p.stp.state = .disabled

/-! ## Which ports are disabled -/

/-- The ports and their maps, and which of them are disabled. -/
def NetBridge.asleep (br : NetBridge) : List (Nat × BitVec 32 × Bool) :=
  br.ports.map fun p => (p.portNo, p.trunkMap, p.stp.state = .disabled)

variable {br br' : NetBridge} {p : Port} {clock : Clock}

theorem asleep_of_ports (same : br'.ports = br.ports) : br'.asleep = br.asleep := by
  rw [asleep, same, asleep]

theorem mem_asleep (inList : p ∈ br.ports) : (p.portNo, p.trunkMap, decide (p.stp.state = .disabled)) ∈ br.asleep :=
  mem_map_of_mem inList

theorem counterpart (same : br'.asleep = br.asleep) {p' : Port} (inList : p' ∈ br'.ports) :
    ∃ p ∈ br.ports, p.portNo = p'.portNo ∧ p.trunkMap = p'.trunkMap ∧
      (p'.stp.state = .disabled ↔ p.stp.state = .disabled) := by
  have listed := mem_asleep inList
  rw [same] at listed
  obtain ⟨p, inList, equal⟩ := mem_map.1 listed
  simp only [Prod.mk.injEq, decide_eq_decide] at equal
  exact ⟨p, inList, equal.1, equal.2.1, equal.2.2.symm⟩

variable {q : Port} {state : State}

theorem eq_of_portNo (hp : p ∈ br.ports) (hq : q ∈ br.ports) (same : p.portNo = q.portNo) : p = q :=
  inj_on_of_nodup_map br.numbered hp hq same

theorem keepsDisabled_of_asleep (same : br'.asleep = br.asleep) : KeepsDisabled br br' := by
  intro q inList disabled q' inList' number
  obtain ⟨p, there, number', -, iff⟩ := counterpart same inList'
  rw [iff, eq_of_portNo there inList (number'.trans number)]
  exact disabled

theorem Separate.of_asleep (separate : Separate br) (same : br'.asleep = br.asleep) : Separate br' := by
  intro p' hp' q' hq' member disabled
  obtain ⟨p, hp, -, map, awake⟩ := counterpart same hp'
  obtain ⟨q, hq, number, -, awake'⟩ := counterpart same hq'
  rw [awake]
  refine separate p hp q hq ?_ (awake'.1 disabled)
  rw [map]
  simpa [Port.memberOf, number] using member

variable {f : PortStp → PortStp}

theorem modify_asleep {which : Port → Bool}
    (same : ∀ p ∈ br.ports, which p = true → ((f p.stp).state = .disabled ↔ p.stp.state = .disabled)) :
    (br.modify which f).asleep = br.asleep := by
  unfold asleep
  rw [modify_ports, map_map]
  refine map_congr_left fun p inList => ?_
  by_cases chosen : which p = true
  · simp [chosen, same p inList chosen]
  · simp [chosen]

theorem modifyPort_asleep (inList : p ∈ br.ports) (same : (f p.stp).state = .disabled ↔ p.stp.state = .disabled) :
    (br.modifyPort p.portNo f).asleep = br.asleep := by
  refine modify_asleep fun q hq chosen => ?_
  rw [eq_of_portNo hq inList (of_decide_eq_true chosen)]
  exact same

theorem spread_asleep (same : ∀ q ∈ br.ports, q.memberOf p.trunkMap → (state = .disabled ↔ q.stp.state = .disabled)) :
    (br.spread p state).asleep = br.asleep := by
  unfold spread
  split
  · refine (modify_asleep fun q hq member => ?_).trans rfl
    exact same q hq member
  · rfl

/-- In a separate bridge, the members of the map of a port that is not disabled are not disabled. -/
theorem Separate.members_awake (separate : Separate br) (inList : p ∈ br.ports)
    (awake : p.stp.state ≠ .disabled) : ∀ q ∈ br.ports, q.memberOf p.trunkMap → q.stp.state ≠ .disabled :=
  fun q hq member disabled => awake (separate p inList q hq member disabled)

/-! ## One event -/

theorem selectPortState_asleep (separate : Separate br)
    (inList : p ∈ br.ports) : (selectPortState clock p br).asleep = br.asleep := by
  obtain same | ⟨awake, ⟨f, leaves, written⟩ | ⟨state, wakes, f, sets, written⟩⟩ := selectPortState_cases clock br p
  · exact asleep_of_ports same
  · rw [asleep_of_ports written]
    exact modifyPort_asleep inList (by rw [leaves])
  · have own : (br.modifyPort p.portNo f).asleep = br.asleep :=
      modifyPort_asleep inList (by rw [sets]; exact iff_of_false wakes awake)
    rw [asleep_of_ports written, spread_asleep, own]
    intro q' hq' member
    obtain ⟨q, hq, number, -, same⟩ := counterpart own hq'
    rw [same]
    exact iff_of_false wakes (separate.members_awake inList awake q hq (by simpa [Port.memberOf, number] using member))

theorem brPortStateSelection_asleep (separate : Separate br) : (brPortStateSelection clock br).asleep = br.asleep := by
  unfold brPortStateSelection
  split
  · rfl
  · refine forEachPort_invariant (fun s : NetBridge => s.asleep = br.asleep) ?_ _ br rfl
    intro s p same inList _
    exact (selectPortState_asleep (separate.of_asleep same) inList).trans same

theorem delayed_eq_disabled_iff (state : State) : state.delayed = .disabled ↔ state = .disabled := by
  cases state <;> decide

theorem delayPort_asleep (clock : Clock) (inList : p ∈ br.ports) : (delayPort clock br p).asleep = br.asleep := by
  unfold delayPort
  split
  · rename_i listening
    exact modifyPort_asleep inList (by simp [listening])
  · rename_i learning
    have own : (br.modifyPort p.portNo fun stp => { stp with state := .forwarding }).asleep = br.asleep :=
      modifyPort_asleep inList (by simp [learning])
    dsimp only
    split
    · rw [asleep_of_ports (brTopologyChangeDetection_ports clock _), own]
    · exact own
  · rfl

theorem mem_spread {q' : Port} : q' ∈ (br.spread p state).ports ↔
      ∃ q ∈ br.ports, q' = if q.memberOf p.trunkMap then { q with stp := { q.stp with state := state } } else q := by
  unfold spread
  split
  · simp only [brTrunkMemberPortStateSelection, modify_ports, mem_map, Port.memberOf, emit, eq_comm]
  · rename_i none
    have nobody : ∀ q : Port, q.memberOf p.trunkMap = false := by
      intro q
      rw [not_not.1 none]
      simp [Port.memberOf, bit]
    simp [nobody]

theorem spread_disabled_keeps (br : NetBridge) (p : Port) : KeepsDisabled br (br.spread p .disabled) := by
  intro q inList disabled q' inList' number
  obtain ⟨q₀, there, rfl⟩ := mem_spread.1 inList'
  by_cases member : q₀.memberOf p.trunkMap
  · rw [if_pos member]
  · rw [if_neg member] at number ⊢
    rw [eq_of_portNo there inList number]
    exact disabled

theorem emit_spread_ports (br : NetBridge) (sent : List Sent) (p : Port) (state : State) :
    ((br.emit sent).spread p state).ports = (br.spread p state).ports := by
  have same : (br.emit sent).ports = br.ports := rfl
  exact spread_congr same p state

theorem forwardDelay_of_mem (inList : p ∈ br.ports) : (brForwardDelayTimerExpired clock br p.portNo).ports =
      ((delayPort clock br p).spread p p.stp.state.delayed).ports := by
  simp only [brForwardDelayTimerExpired, brGetPort_of_mem inList]
  exact emit_spread_ports _ _ p _

/-- A port whose map has only ports that are disabled as it is: its timer changes none of them. -/
theorem forwardDelay_asleep (clock : Clock) (inList : p ∈ br.ports)
    (alike : ∀ q ∈ br.ports, q.memberOf p.trunkMap → (p.stp.state = .disabled ↔ q.stp.state = .disabled)) :
    (brForwardDelayTimerExpired clock br p.portNo).asleep = br.asleep := by
  have own := delayPort_asleep clock inList
  rw [asleep_of_ports (forwardDelay_of_mem inList), spread_asleep, own]
  intro q' hq' member
  obtain ⟨q, hq, number, -, same⟩ := counterpart own hq'
  rw [delayed_eq_disabled_iff, same]
  exact alike q hq (by simpa [Port.memberOf, number] using member)

theorem KeepsDisabled.of_ports {br'' : NetBridge} (keeps : KeepsDisabled br br') (same : br''.ports = br'.ports) :
    KeepsDisabled br br'' := by
  unfold KeepsDisabled
  rw [same]
  exact keeps

/-- A disabled port: its timer only disables. -/
theorem forwardDelay_keeps_of_disabled (inList : p ∈ br.ports)
    (disabled : p.stp.state = .disabled) : KeepsDisabled br (brForwardDelayTimerExpired clock br p.portNo) := by
  refine KeepsDisabled.of_ports ?_ (forwardDelay_of_mem inList)
  have idle : delayPort clock br p = br := by simp [delayPort, disabled]
  rw [idle, disabled]
  exact spread_disabled_keeps br p

theorem forwardDelay_cases (clock : Clock) (br : NetBridge) (portNo : Nat) :
    brForwardDelayTimerExpired clock br portNo = br ∨ ∃ p ∈ br.ports, p.portNo = portNo := by
  cases found : brGetPort br portNo with
  | none => exact .inl (by simp [brForwardDelayTimerExpired, found])
  | some p =>
    have number : p.portNo = portNo := by simpa using find?_some found
    exact .inr ⟨p, mem_of_find?_eq_some found, number⟩

theorem Separate.keeps_after (separate : Separate br) (event : StpEvent) : KeepsDisabled br (br.after event) := by
  cases event with
  | portStateSelection clock => exact keepsDisabled_of_asleep (brPortStateSelection_asleep separate)
  | forwardDelayTimerExpired clock portNo =>
    obtain idle | ⟨p, inList, rfl⟩ := forwardDelay_cases clock br portNo
    · exact keepsDisabled_of_asleep (asleep_of_ports (congrArg ports idle))
    · by_cases disabled : p.stp.state = .disabled
      · exact forwardDelay_keeps_of_disabled inList disabled
      · refine keepsDisabled_of_asleep (forwardDelay_asleep clock inList fun q hq member => ?_)
        exact iff_of_false disabled (separate.members_awake inList disabled q hq member)

/-- A port that is not disabled wakes up the disabled ports of its map when its timer expires. -/
theorem not_keeps_of_mixed (hp : p ∈ br.ports) (hq : q ∈ br.ports)
    (member : q.memberOf p.trunkMap) (disabled : q.stp.state = .disabled) (awake : p.stp.state ≠ .disabled) :
    ¬KeepsDisabled br (br.after (.forwardDelayTimerExpired clock p.portNo)) := by
  intro keeps
  obtain ⟨q₁, hq₁, number, -⟩ := counterpart (delayPort_asleep clock hp).symm hq
  have stays := keeps q hq disabled { q₁ with stp := { q₁.stp with state := p.stp.state.delayed } } ?_ number
  · exact awake ((delayed_eq_disabled_iff _).1 stays)
  · show _ ∈ (brForwardDelayTimerExpired clock br p.portNo).ports
    rw [forwardDelay_of_mem hp, mem_spread]
    refine ⟨q₁, hq₁, ?_⟩
    rw [if_pos]
    simpa [Port.memberOf, number] using member

/-! ## All runs -/

/-- **Disabled ports stay disabled in every run exactly if no run reaches a port that is not
disabled with a disabled one in its trunk map.** -/
theorem disabled_stay_iff (br : NetBridge) :
    (∀ events event, KeepsDisabled (br.run events) ((br.run events).after event)) ↔
      ∀ events, Separate (br.run events) := by
  constructor
  · intro keeps events p hp q hq member disabled
    by_contra awake
    exact not_keeps_of_mixed hp hq member disabled awake (keeps events (.forwardDelayTimerExpired ⟨0, 0, id⟩ p.portNo))
  · exact fun separate events event => (separate events).keeps_after event

/-- Port 3 is disabled, and in a trunk with port 2, which is not. -/
def halfDisabled : NetBridge := neighbours.modifyPort 3 fun stp => { stp with state := .disabled }

/-- The selection and the timer of port 2 each wake up port 3. -/
theorem halfDisabled_wakes : (halfDisabled.ports.filter fun p => p.stp.state = .disabled).map Port.portNo = [3] ∧
    ((halfDisabled.after (.portStateSelection sampleClock)).memberStates 0b0110 = [(3, .listening), (2, .listening)]) ∧
    ((halfDisabled.after (.forwardDelayTimerExpired sampleClock 2)).memberStates 0b0110 =
      [(3, .blocking), (2, .blocking)]) ∧
    ¬∀ event, KeepsDisabled halfDisabled (halfDisabled.after event) := by
  refine ⟨by decide, by decide, by decide, fun keeps => ?_⟩
  have mixed : ∃ p ∈ halfDisabled.ports, ∃ q ∈ halfDisabled.ports,
      q.memberOf p.trunkMap ∧ q.stp.state = .disabled ∧ p.stp.state ≠ .disabled := by decide
  obtain ⟨p, hp, q, hq, member, disabled, awake⟩ := mixed
  exact not_keeps_of_mixed hp hq member disabled awake (keeps (.forwardDelayTimerExpired sampleClock p.portNo))

end RouterApps.Bridge
