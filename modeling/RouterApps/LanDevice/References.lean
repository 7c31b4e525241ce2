/-
# LanDevice.References -- references to the LAN device (nf_conntrack_core.c and its callers)

`check_local_ip` and `check_internal_subnet` find the local interface with `dev_get_by_name`, which takes
a reference to the device, and neither gives it back.  They are called when a connection is charged or
discharged, by the check of destination NAT, by the NETDETECT target and by the monitor of Smart QoS.

The functions here are those of `Conntrack.Accounting`, `Netdetect.History` and `SmartQos.Monitor` again, with the
references they hold as a counter: `follows_step` says that they compute the same, and which of them ask.  The
device is found anew by every call, so each step of a run has its own.
-/
import RouterApps.Conntrack.Accounting
import RouterApps.Netdetect.History
import RouterApps.SmartQos.Monitor
import RouterApps.Theory.Charge

namespace RouterApps.LanDevice

open Inet Theory Theory.Tally Option
open Conntrack (Ipidx lancpuIpidx wancpuIpidx ipidxOf protocolFull)

/-! ## The device -/

/-- The local interface as it is found: not there, without an `in_device`, or with its `ifa_list`. -/
inductive LocalDev
  | absent
  | bare
  | up (ifaList : List InIfaddr)
deriving DecidableEq

namespace LocalDev

def ifaList : LocalDev → List InIfaddr
  | absent => []
  | bare => []
  | up ifaList => ifaList

/-- The references that `dev_get_by_name` takes. -/
def references : LocalDev → Nat
  | absent => 0
  | bare => 1
  | up _ => 1

/-- What the callers see of the device. -/
def lan (dev : LocalDev) (realIpclone : Bool) : Lan := ⟨dev.ifaList, realIpclone⟩

end LocalDev

/-- What is set from outside, with the device as it is now. -/
def atDev (limits : Conntrack.Limits) (dev : LocalDev) : Conntrack.Limits :=
  { limits with lan := dev.lan limits.lan.realIpclone }

/-! ## The predicates -/

/-- `dev_get_by_name` of the local interface: its `ip_ptr`, if the device is there. -/
def devGetByName (dev : LocalDev) : StateM Nat (Option (Option (List InIfaddr))) := do
  modify (· + dev.references)
  match dev with
  | .absent => pure none
  | .bare => pure (some none)
  | .up ifaList => pure (some (some ifaList))

def checkLocalIp (dev : LocalDev) (ipaddr : UInt32) : StateM Nat Bool := do
  match ← devGetByName dev with
  | none => pure false
  | some none => pure false
  | some (some ifaList) => pure (ifaList.any fun ifa => ipaddr = ifa.address)

def checkInternalSubnet (dev : LocalDev) (ipaddr : UInt32) : StateM Nat Bool := do
  match ← devGetByName dev with
  | none => pure false
  | some none => pure false
  | some (some ifaList) => pure (internalSubnetOf ipaddr ifaList ≠ 0)

section

variable (dev : LocalDev) (realIpclone : Bool) (ipaddr : UInt32)

theorem checkLocalIp_charges :
    Charges (checkLocalIp dev ipaddr) (Inet.checkLocalIp (dev.lan realIpclone) ipaddr) dev.references True := by
  refine ⟨1, by simp, fun held => ?_⟩
  cases dev <;> rfl

theorem checkInternalSubnet_charges :
    Charges (checkInternalSubnet dev ipaddr) (Inet.checkInternalSubnet (dev.lan realIpclone) ipaddr) dev.references
      True := by
  refine ⟨1, by simp, fun held => ?_⟩
  cases dev <;> rfl

end

/-! ## Connections -/

section

variable (limits : Conntrack.Limits) (dev : LocalDev)

def getConntrackCountPerIpIndex (orgTuple : Conntrack.Tuple) (replTuple : Option Conntrack.Tuple) :
    StateM Nat Ipidx := do
  let isLocal ← checkLocalIp dev orgTuple.dst
  if isLocal then pure lancpuIpidx
  else
    let internal ← checkInternalSubnet dev orgTuple.src
    if internal then pure (ipidxOf (atDev limits dev).lan orgTuple.src)
    else
      match replTuple with
      | none => pure wancpuIpidx
      | some replTuple =>
        let internal ← checkInternalSubnet dev replTuple.src
        if internal then pure (ipidxOf (atDev limits dev).lan replTuple.src) else pure wancpuIpidx

def checkConntrackRatioPerIp (t : Conntrack.Tracker) (orgTuple : Conntrack.Tuple) : StateM Nat (Bool × Bool) := do
  let ipidx ← getConntrackCountPerIpIndex limits dev orgTuple none
  if ipidx = lancpuIpidx ∨ ipidx = wancpuIpidx then pure (true, true)
  else if limits.unlimited then pure (true, false)
  else pure (limits.belowRate (t.countPerIp ipidx), false)

/-- `increase_conntrack_count_per_ip` -/
def increase (ct : Conntrack.Conn) (t : Conntrack.Tracker) : StateM Nat Conntrack.Tracker := do
  let ipidx ← getConntrackCountPerIpIndex limits dev ct.original (some ct.reply)
  pure { t with countPerIp := raise t.countPerIp ipidx }

/-- `decrease_conntrack_count_per_ip` -/
def decrease (ct : Conntrack.Conn) (t : Conntrack.Tracker) : StateM Nat Conntrack.Tracker := do
  let ipidx ← getConntrackCountPerIpIndex limits dev ct.original (some ct.reply)
  pure { t with countPerIp := lower t.countPerIp ipidx }

def nfConntrackAlloc (original reply : Conntrack.Tuple) (dropped memory : Bool) (t : Conntrack.Tracker) :
    StateM Nat (Option Conntrack.Tracker) :=
  if protocolFull limits t original.protonum then pure none
  else do
    let (pass, passme) ← checkConntrackRatioPerIp limits dev t original
    if !pass then pure none
    else if !passme && limits.nfConntrackMax ≠ 0 && t.count + 1 > limits.nfConntrackMax && !dropped then pure none
    else if !memory then pure none
    else
      let ct : Conntrack.Conn := ⟨original, reply⟩
      let t := { t with count := t.count + 1 }
      let t := t.countProtocol original.protonum
      let t ← increase limits dev ct { t with live := t.live ++ [ct] }
      pure (some t)

/-- `nf_conntrack_free` of the `j`-th connection. -/
def nfConntrackFree (j : Nat) (t : Conntrack.Tracker) : StateM Nat (Option Conntrack.Tracker) :=
  match t.live[j]? with
  | none => pure none
  | some ct => do
    let t ← decrease limits dev ct t
    let t := t.uncountProtocol ct.original.protonum
    pure (some { t with live := t.live.eraseIdx j, count := t.count - 1 })

/-- The last part of `init_conntrack`. -/
def expectConntrack (j : Nat) (redirected : Option Conntrack.Tuple) (t : Conntrack.Tracker) :
    StateM Nat (Option Conntrack.Tracker) :=
  match t.live[j]? with
  | none => pure none
  | some ct => do
    let t ← decrease limits dev ct t
    let ct' : Conntrack.Conn := { ct with reply := redirected.getD ct.reply }
    let t ← increase limits dev ct' { t with live := t.live.set j ct' }
    pure (some t)

def checkConntrackRatioInDnat (ct : Conntrack.Conn) (minIp : UInt32) (t : Conntrack.Tracker) :
    StateM Nat (Option Conntrack.Tracker) := do
  let inside ← checkInternalSubnet dev minIp
  if !inside then pure (some t)
  else
    -- internal port forward
    let fromInside ← checkInternalSubnet dev ct.original.src
    if fromInside then pure (some t)
    else
      let ipidx := ipidxOf (atDev limits dev).lan minIp
      if ipidx = lancpuIpidx ∨ ipidx = wancpuIpidx then pure (some t)
      else if limits.unlimited ∨ limits.belowRate (t.countPerIp ipidx) then
        let t ← decrease limits dev ct { t with countPerIp := raise t.countPerIp ipidx }
        pure (some t)
      else pure none

/-- `ipt_dnat_target` on the `j`-th connection. -/
def iptDnatTarget (j : Nat) (minIp : UInt32) (t : Conntrack.Tracker) : StateM Nat (Option Conntrack.Tracker) :=
  match t.live[j]? with
  | none => pure none
  | some ct => do
    let checked ← checkConntrackRatioInDnat limits dev ct minIp t
    match checked with
    | some t => pure (some { t with live := t.live.set j (ct.dnat minIp) })
    | none => pure (some t)

def trackerStep (t : Conntrack.Tracker) : Conntrack.Event → StateM Nat (Option Conntrack.Tracker)
  | .alloc original reply dropped memory => do
    let allocated ← nfConntrackAlloc limits dev original reply dropped memory t
    pure (some (allocated.getD t))
  | .expect j redirected => expectConntrack limits dev j redirected t
  | .dnat j minIp => iptDnatTarget limits dev j minIp t
  | .free j => nfConntrackFree limits dev j t

end

/-! ## What they ask -/

section

variable (limits : Conntrack.Limits) (dev : LocalDev) (t : Conntrack.Tracker) (ct : Conntrack.Conn)
  {j : Nat} (orgTuple : Conntrack.Tuple)

theorem getConntrackCountPerIpIndex_charges (replTuple : Option Conntrack.Tuple) :
    Charges (getConntrackCountPerIpIndex limits dev orgTuple replTuple)
      (Conntrack.getConntrackCountPerIpIndex (atDev limits dev).lan orgTuple replTuple) dev.references True := by
  refine .bind_of_asks (checkLocalIp_charges dev limits.lan.realIpclone orgTuple.dst) ?_
  refine .ite (.pure _ _) (.bind ⟨_, checkInternalSubnet_charges dev limits.lan.realIpclone orgTuple.src⟩ ?_)
  refine .ite (.pure _ _) ?_
  cases replTuple with
  | none => exact .pure _ _
  | some replTuple =>
    refine .bind ⟨_, checkInternalSubnet_charges dev limits.lan.realIpclone replTuple.src⟩ ?_
    exact .ite (.pure _ _) (.pure _ _)

theorem checkConntrackRatioPerIp_charges : Charges (checkConntrackRatioPerIp limits dev t orgTuple)
      (Conntrack.checkConntrackRatioPerIp (atDev limits dev) t orgTuple) dev.references True := by
  refine .bind_of_asks (getConntrackCountPerIpIndex_charges limits dev orgTuple none) ?_
  exact .ite (.pure _ _) (.ite (.pure _ _) (.pure _ _))

theorem increase_charges : Charges (increase limits dev ct t) (t.increase (atDev limits dev).lan ct) dev.references True :=
  .bind_of_asks (getConntrackCountPerIpIndex_charges limits dev ct.original (some ct.reply)) (.pure _ _)

theorem decrease_charges : Charges (decrease limits dev ct t) (t.decrease (atDev limits dev).lan ct) dev.references True :=
  .bind_of_asks (getConntrackCountPerIpIndex_charges limits dev ct.original (some ct.reply)) (.pure _ _)

theorem nfConntrackAlloc_charges (original reply : Conntrack.Tuple) (dropped memory : Bool) :
    Charges (nfConntrackAlloc limits dev original reply dropped memory t)
      (Conntrack.nfConntrackAlloc (atDev limits dev) original reply dropped memory t) dev.references
      (protocolFull limits t original.protonum = false) := by
  have same : protocolFull (atDev limits dev) t original.protonum = protocolFull limits t original.protonum := rfl
  unfold nfConntrackAlloc Conntrack.nfConntrackAlloc
  cases full : protocolFull limits t original.protonum with
  | true =>
    rw [full] at same
    simp only [same]
    exact (Charges.pure _ _).congr (by simp)
  | false =>
    rw [full] at same
    simp only [same]
    refine (Charges.bind_of_asks (checkConntrackRatioPerIp_charges limits dev t original) ?_).congr (by simp)
    refine .ite (.pure _ _) (.ite (.pure _ _) (.ite (.pure _ _) ?_))
    exact .bind ⟨_, increase_charges limits dev _ _⟩ (.pure _ _)

theorem nfConntrackFree_charges (there : t.live[j]? = some ct) :
    Charges (nfConntrackFree limits dev j t) (Conntrack.nfConntrackFree (atDev limits dev) j t) dev.references True := by
  simp only [nfConntrackFree, Conntrack.nfConntrackFree, there]
  exact .bind_of_asks (decrease_charges limits dev t ct) (.pure _ _)

theorem expectConntrack_charges (redirected : Option Conntrack.Tuple) (there : t.live[j]? = some ct) :
    Charges (expectConntrack limits dev j redirected t)
      (Conntrack.expectConntrack (atDev limits dev) j redirected t) dev.references True := by
  simp only [expectConntrack, Conntrack.expectConntrack, there]
  refine .bind_of_asks (decrease_charges limits dev t ct) ?_
  exact .bind ⟨_, increase_charges limits dev _ _⟩ (.pure _ _)

variable (minIp : UInt32)

theorem checkConntrackRatioInDnat_charges : Charges (checkConntrackRatioInDnat limits dev ct minIp t)
      (Conntrack.checkConntrackRatioInDnat (atDev limits dev) ct minIp t) dev.references True := by
  refine .bind_of_asks (checkInternalSubnet_charges dev limits.lan.realIpclone minIp) ?_
  refine .ite (.pure _ _) (.bind ⟨_, checkInternalSubnet_charges dev limits.lan.realIpclone ct.original.src⟩ ?_)
  refine .ite (.pure _ _) (.ite (.pure _ _) (.ite ?_ (.pure _ _)))
  exact .bind ⟨_, decrease_charges limits dev _ ct⟩ (.pure _ _)

theorem iptDnatTarget_charges (there : t.live[j]? = some ct) :
    Charges (iptDnatTarget limits dev j minIp t) (Conntrack.iptDnatTarget (atDev limits dev) j minIp t)
      dev.references True := by
  simp only [iptDnatTarget, Conntrack.iptDnatTarget, there, map_some]
  refine .bind_of_asks (checkConntrackRatioInDnat_charges limits dev t ct minIp) ?_
  cases Conntrack.checkConntrackRatioInDnat (atDev limits dev) ct minIp t with
  | none | some t' => exact .pure _ _

end

/-- Every step of the tracker asks, unless it is an allocation beyond the limit of its protocol. -/
def eventAsks (limits : Conntrack.Limits) (t : Conntrack.Tracker) : Conntrack.Event → Prop
  | .alloc original _ _ _ => protocolFull limits t original.protonum = false
  | .expect _ _ => True
  | .dnat _ _ => True
  | .free _ => True

variable {unit : Nat}

/-- A step on a connection that is not there has no result; on one that is, it asks. -/
theorem charges_of_live {α : Type} {m : StateM Nat (Option α)} {a : Option α} (c : Option Conntrack.Conn)
    (missing : c = none → m = pure none ∧ a = none) (there : ∀ ct, c = some ct → Charges m a unit True) :
    ∃ p, Charges m a unit p ∧ ∀ a', a = some a' → (p ↔ True) := by
  cases c with
  | none =>
    obtain ⟨rfl, rfl⟩ := missing rfl
    exact ⟨False, .pure _ _, nofun⟩
  | some ct => exact ⟨True, there ct rfl, fun _ _ => Iff.rfl⟩

theorem trackerStep_charges (limits : Conntrack.Limits) (dev : LocalDev) (t : Conntrack.Tracker)
    (event : Conntrack.Event) :
    ∃ p, Charges (trackerStep limits dev t event) (t.step (atDev limits dev) event) dev.references p ∧
      ∀ t', t.step (atDev limits dev) event = some t' → (p ↔ eventAsks limits t event) := by
  cases event with
  | alloc original reply dropped memory =>
    exact ⟨_, (nfConntrackAlloc_charges limits dev t original reply dropped memory).last _, fun _ _ => Iff.rfl⟩
  | expect j redirected =>
    refine charges_of_live t.live[j]? (fun missing => ?_) fun ct => expectConntrack_charges limits dev t ct redirected
    simp [trackerStep, expectConntrack, Conntrack.Tracker.step, Conntrack.expectConntrack, missing]
  | dnat j minIp =>
    refine charges_of_live t.live[j]? (fun missing => ?_) fun ct => iptDnatTarget_charges limits dev t ct minIp
    simp [trackerStep, iptDnatTarget, Conntrack.Tracker.step, Conntrack.iptDnatTarget, missing]
  | free j =>
    refine charges_of_live t.live[j]? (fun missing => ?_) fun ct => nfConntrackFree_charges limits dev t ct
    simp [trackerStep, nfConntrackFree, Conntrack.Tracker.step, Conntrack.nfConntrackFree, missing]

/-! ## Packets -/

section

variable (dev : LocalDev) (realIpclone : Bool)

theorem length_hitHost (d : Netdetect.Detector) (srcip seconds : UInt32) (ndh host : Netdetect.Slot) :
    (d.ipHistory.set (lastByte srcip) (host.hitHost srcip d.limitBurst seconds ndh)).length = Netdetect.maxIpHistory := by
  rw [List.length_set, d.ipHistoryLength]

/-- The end of `update_net_detect_history`: the second table. -/
def countHost (d : Netdetect.Detector) (srcip seconds : UInt32) (ndh : Netdetect.Slot) :
    StateM Nat (Option Netdetect.Detector) := do
  let inside ← checkInternalSubnet dev srcip
  pure (if inside then
      d.ipHistory[lastByte srcip]?.map fun host =>
        { d with
          ipHistory := d.ipHistory.set (lastByte srcip) (host.hitHost srcip d.limitBurst seconds ndh)
          ipHistoryLength := length_hitHost d srcip seconds ndh host }
    else some d)

def updateNetDetectHistory (d : Netdetect.Detector) (srcip : UInt32) (proto : UInt8) (port : UInt16)
    (seconds : UInt32) : StateM Nat (Option (UInt32 × Netdetect.Detector)) :=
  match Netdetect.searchNetDetectHistory d.history srcip proto port with
  | none => pure (some (0, d))
  | some (idx, slot) =>
    let ndh := slot.hit srcip proto port seconds
    let d := d.writeHistory idx ndh
    match d.verdict srcip ndh with
    | none => pure none
    | some rc => do
      let d ← countHost dev d srcip seconds ndh
      pure (d.bind fun d => some (rc, d))

def target (d : Netdetect.Detector) (p : Netdetect.Packet) : StateM Nat (Option (UInt32 × Netdetect.Detector)) :=
  if p.counted then updateNetDetectHistory dev (d.setLimit p.limit) p.saddr p.protocol p.destPort p.seconds
  else pure (some (Netdetect.xtContinue, d))

def smartCallback (frame : SmartQos.Frame) (jiffies : UInt32) (q : SmartQos.QosList) : StateM Nat SmartQos.QosList :=
  if !frame.ethPIp then pure q
  else if !frame.localIf then pure q
  else if frame.saddr = 0 then pure q
  else do
    let inside ← checkInternalSubnet dev frame.saddr
    if !inside then pure q
    else
      let idx := frame.idx (dev.lan realIpclone)
      pure (Function.update q idx ((q idx).touch frame.saddr jiffies))

section

variable (d : Netdetect.Detector)

include d

variable (p : Netdetect.Packet)

theorem search_isSome_iff :
    (Netdetect.searchNetDetectHistory d.history p.saddr p.protocol p.destPort).isSome = true ↔ p.HasRoom d := by
  rcases Netdetect.takes_or_full p d.history with ⟨before, slot, after, takes⟩ | full
  · rw [Netdetect.search_of_takes takes]
    refine iff_of_true rfl ⟨slot, by rw [takes.split]; simp, ?_⟩
    exact takes.chosen.imp And.left fun chosen => chosen.2.1
  · rw [Netdetect.search_of_full full]
    refine iff_of_false (by simp) ?_
    rintro ⟨slot, inside, own | free⟩
    · exact (full slot inside).1 own
    · exact (full slot inside).2 free

theorem countHost_charges (srcip seconds : UInt32) (ndh : Netdetect.Slot) :
    Charges (countHost dev d srcip seconds ndh) (d.countHost (dev.lan realIpclone) srcip seconds ndh) dev.references
      True :=
  (checkInternalSubnet_charges dev realIpclone srcip).last _

theorem updateNetDetectHistory_charges (srcip : UInt32) (proto : UInt8) (port : UInt16) (seconds : UInt32) :
    ∃ q, Charges (updateNetDetectHistory dev d srcip proto port seconds)
        (d.updateNetDetectHistory (dev.lan realIpclone) srcip proto port seconds) dev.references q ∧
      ∀ r, d.updateNetDetectHistory (dev.lan realIpclone) srcip proto port seconds = some r →
        (q ↔ (Netdetect.searchNetDetectHistory d.history srcip proto port).isSome = true) := by
  unfold updateNetDetectHistory Netdetect.Detector.updateNetDetectHistory
  cases found : Netdetect.searchNetDetectHistory d.history srcip proto port with
  | none => exact ⟨False, .pure _ _, fun _ _ => by simp⟩
  | some hit =>
    obtain ⟨idx, slot⟩ := hit
    cases verdict : (d.writeHistory idx (slot.hit srcip proto port seconds)).verdict srcip
        (slot.hit srcip proto port seconds) with
    | none =>
      simp only [verdict]
      exact ⟨False, .pure _ _, nofun⟩
    | some rc =>
      simp only [verdict]
      refine ⟨True, ?_, fun _ _ => by simp⟩
      exact (countHost_charges dev realIpclone _ srcip seconds _).last fun d => d.bind fun d => some (rc, d)

theorem target_charges : ∃ q, Charges (target dev d p) (Netdetect.target (dev.lan realIpclone) d p) dev.references q ∧
      ∀ r, Netdetect.target (dev.lan realIpclone) d p = some r → (q ↔ p.counted = true ∧ p.HasRoom d) := by
  unfold target Netdetect.target
  by_cases counted : p.counted = true
  · rw [if_pos counted, if_pos counted]
    obtain ⟨q, charges, asks⟩ :=
      updateNetDetectHistory_charges dev realIpclone (d.setLimit p.limit) p.saddr p.protocol p.destPort p.seconds
    refine ⟨q, charges, fun r ran => (asks r ran).trans ?_⟩
    rw [and_iff_right counted]
    exact search_isSome_iff d p
  · rw [if_neg counted, if_neg counted]
    exact ⟨False, .pure _ _, fun _ _ => by simp [counted]⟩

end

theorem smartCallback_charges (frame : SmartQos.Frame) (jiffies : UInt32) (q : SmartQos.QosList) :
    Charges (smartCallback dev realIpclone frame jiffies q)
      (SmartQos.smartCallback (dev.lan realIpclone) frame jiffies q) dev.references
      (frame.ethPIp = true ∧ frame.localIf = true ∧ frame.saddr ≠ 0) := by
  unfold smartCallback SmartQos.smartCallback SmartQos.Frame.monitored
  by_cases looked : frame.ethPIp = true ∧ frame.localIf = true ∧ frame.saddr ≠ 0
  · obtain ⟨isIp, isLocal, source⟩ := looked
    simp only [isIp, isLocal, source, ne_eq, not_false_eq_true, true_and]
    have inside := checkInternalSubnet_charges dev realIpclone frame.saddr
    generalize Inet.checkInternalSubnet (dev.lan realIpclone) frame.saddr = found at inside ⊢
    cases found with
    | true | false => exact inside.bind_of_asks (.pure _ _)
  · have passed : (frame.ethPIp && frame.localIf && decide (frame.saddr ≠ 0)) = false := by
      simpa using looked
    rw [passed, Bool.false_and]
    refine Charges.congr (?_) (iff_of_false id looked)
    split
    · exact .pure _ _
    · split
      · exact .pure _ _
      · split
        · exact .pure _ _
        · rename_i isIp isLocal source
          exact absurd ⟨by simpa using isIp, by simpa using isLocal, source⟩ looked

end

/-! ## The system -/

/-- The tables of the three parts. -/
structure Machine where
  tracker : Conntrack.Tracker
  detector : Netdetect.Detector
  qos : SmartQos.QosList

/-- What happens.  `others` is whatever else changes the tables: timers and proc files. -/
inductive Act
  | conntrack (event : Conntrack.Event)
  | netdetect (packet : Netdetect.Packet)
  | smartQos (frame : SmartQos.Frame) (jiffies : UInt32)
  | others (machine : Machine)

/-- Something happens while the local interface is as given. -/
structure Op where
  dev : LocalDev
  act : Act

/-- Does it ask whether an address is local? -/
def Act.Asks (limits : Conntrack.Limits) (m : Machine) : Act → Prop
  | conntrack event => eventAsks limits m.tracker event
  | netdetect packet => packet.counted = true ∧ packet.HasRoom m.detector
  | smartQos frame _ => frame.ethPIp = true ∧ frame.localIf = true ∧ frame.saddr ≠ 0
  | others _ => False

section

variable (limits : Conntrack.Limits)

/-- A step of the tables alone. -/
def Machine.step (m : Machine) (op : Op) : Option Machine :=
  match op.act with
  | .conntrack event => (m.tracker.step (atDev limits op.dev) event).map fun t => { m with tracker := t }
  | .netdetect packet =>
    (Netdetect.target (atDev limits op.dev).lan m.detector packet).map fun r => { m with detector := r.2 }
  | .smartQos frame jiffies =>
    some { m with qos := SmartQos.smartCallback (atDev limits op.dev).lan frame jiffies m.qos }
  | .others machine => some machine

/-- The same step with the references to the device. -/
def step (m : Machine) (op : Op) : StateM Nat (Option Machine) :=
  match op.act with
  | .conntrack event => do
    let t ← trackerStep limits op.dev m.tracker event
    pure (t.map fun t => { m with tracker := t })
  | .netdetect packet => do
    let r ← target op.dev m.detector packet
    pure (r.map fun r => { m with detector := r.2 })
  | .smartQos frame jiffies => do
    let qos ← smartCallback op.dev limits.lan.realIpclone frame jiffies m.qos
    pure (some { m with qos := qos })
  | .others machine => pure (some machine)

theorem charges_map {α β : Type} {m : StateM Nat (Option α)} {a : Option α} {asks : Prop} (f : α → β)
    (part : ∃ p, Charges m a unit p ∧ ∀ a', a = some a' → (p ↔ asks)) :
    ∃ p, Charges (m >>= fun x => pure (x.map f)) (a.map f) unit p ∧ ∀ b, a.map f = some b → (p ↔ asks) := by
  obtain ⟨p, charges, same⟩ := part
  refine ⟨p, charges.last (Option.map f), fun b mapped => ?_⟩
  obtain ⟨a', found, -⟩ := map_eq_some_iff.1 mapped
  exact same a' found

/-- The references do not change what is computed, and say who asks. -/
theorem follows_step : Follows (step limits) (fun m op => m.step limits op) (fun op => op.dev.references)
      fun m op => op.act.Asks limits m := by
  rintro m ⟨dev, act⟩
  cases act with
  | conntrack event => exact charges_map _ (trackerStep_charges limits dev m.tracker event)
  | netdetect packet => exact charges_map _ (target_charges dev limits.lan.realIpclone m.detector packet)
  | smartQos frame jiffies =>
    have looked := (smartCallback_charges dev limits.lan.realIpclone frame jiffies m.qos).last fun qos =>
      some { m with qos := qos }
    exact ⟨_, looked, fun _ _ => Iff.rfl⟩
  | others machine => exact ⟨False, .pure _ _, fun _ _ => Iff.rfl⟩

/-- **References to the LAN device.**  None is left exactly if no step that found the device asked.
Every free, expectation and check of destination NAT asks, and every allocation within the limit of
its protocol. -/
theorem lan_references_zero_iff {ops : List Op} {m : Machine} {after : Machine × Nat}
    (ran : replay (holding (step limits)) ops (m, 0) = some after) : after.2 = 0 ↔
      Run (fun m op m' => m.step limits op = some m' ∧ (op.dev ≠ .absent → ¬op.act.Asks limits m)) m ops after.1 := by
  have found (op : Op) : op.dev.references ≠ 0 ↔ op.dev ≠ .absent := by
    cases op.dev <;> simp [LocalDev.references]
  rw [held_eq_zero_iff (follows_step limits) ops ran, and_iff_right rfl]
  simp only [found]

end

/-! ## One connection -/

/-- 192.168.0.1 with the mask 255.255.255.0 -/
def lanUp : LocalDev := .up [⟨0x0100A8C0, 0x00FFFFFF⟩]

def noLimits : Conntrack.Limits := ⟨⟨[], false⟩, 0, 0, 0, 0, 0⟩

def emptyMachine : Machine := ⟨.empty, .init false false, fun _ => .zero⟩

/-- A TCP connection from 192.168.0.2 to 8.8.8.8. -/
def clientAlloc : Conntrack.Event := .alloc ⟨0x0200A8C0, 0x08080808, 6⟩ ⟨0x08080808, 0x0200A8C0, 6⟩ false true

/-- An ICMP packet that is not an echo request, and a frame without a source. -/
def unasked : List Op := [⟨lanUp, .netdetect ⟨0x0200A8C0, 1, 0, 0, 10, 0⟩⟩, ⟨lanUp, .smartQos ⟨true, true, 0⟩ 5⟩]

theorem lan_references_zero_unasked :
    ∃ after, replay (holding (step noLimits)) unasked (emptyMachine, 0) = some after ∧ after.2 = 0 := by
  have ran : replay (holding (step noLimits)) unasked (emptyMachine, 0) = some (emptyMachine, 0) := rfl
  refine ⟨_, ran, (lan_references_zero_iff noLimits ran).2 ?_⟩
  refine .cons ⟨rfl, fun _ asks => ?_⟩ (.cons ⟨rfl, fun _ asks => ?_⟩ (.nil _))
  · exact absurd asks.1 (by decide)
  · exact asks.2.2 rfl

/-- **One connection of a LAN host that comes and goes leaves six references to the device.** -/
theorem connection_leaks_device :
    (replay (holding (step noLimits)) [⟨lanUp, .conntrack clientAlloc⟩, ⟨lanUp, .conntrack (.free 0)⟩]
      (emptyMachine, 0)).map Prod.snd = some 6 := by
  decide +kernel

end RouterApps.LanDevice
