/-
# Conntrack.Cap -- the share of one host

`max_rate_per_ip` is the largest share of the table, in percent, that one LAN host may have.  An
allocation is checked with its original tuple alone, but charged with both: a connection from outside
whose replies come from a LAN host is charged to the host without a check (`routed_connections_pass`).

If every charge of that kind finds room, and no product of a counter with 100 leaves 32 bits, the cap
holds in every run (`cap_holds`).
-/
import RouterApps.Conntrack.Conserved

namespace RouterApps.Conntrack

open Inet Theory Theory.Tally Option Tracker

variable {limits : Limits} {t t' : Tracker}

def IsHost (i : Ipidx) : Prop := i ≠ lancpuIpidx ∧ i ≠ wancpuIpidx

instance (i : Ipidx) : Decidable (IsHost i) := inferInstanceAs (Decidable (_ ∧ _))

/-- One more connection of the host does not exceed its share. -/
def Limits.HasRoom (limits : Limits) (count : Nat) : Prop :=
  100 * (count : Int) < limits.maxRatePerIp.toInt * limits.nfConntrackMax

instance (limits : Limits) (count : Nat) : Decidable (limits.HasRoom count) := inferInstanceAs (Decidable (_ < _))

/-- The cap: without its last connection, a host is below its share. -/
def UnderCap (limits : Limits) (counts : Ipidx → Nat) : Prop :=
  ∀ i, IsHost i → 0 < counts i → limits.HasRoom (counts i - 1)

/-! ## Charges without a check -/

/-- The host that is charged for a connection from outside: not made to the router itself, with
replies from the LAN. -/
def Conn.routedTo (lan : Lan) (ct : Conn) : Option Ipidx :=
  if checkLocalIp lan ct.original.dst || checkInternalSubnet lan ct.original.src then none
  else if checkInternalSubnet lan ct.reply.src then some (ipidxOf lan ct.reply.src)
  else none

/-- No host is charged without a check that has no room for it, and no product of a check wraps
around. -/
def Event.Checked (limits : Limits) (t : Tracker) : Event → Prop
  | .alloc original reply _ _ =>
    (∀ i ∈ Conn.routedTo limits.lan ⟨original, reply⟩, IsHost i → limits.HasRoom (t.countPerIp i)) ∧
      100 * t.countPerIp (ipidxOf limits.lan original.src) < 2 ^ 32
  | .expect j redirected =>
    ∀ ct ∈ t.live[j]?, ∀ i ∈ Conn.routedTo limits.lan { ct with reply := redirected.getD ct.reply },
      IsHost i → i ≠ ct.index limits.lan → limits.HasRoom (t.countPerIp i)
  | .dnat _ minIp => 100 * t.countPerIp (ipidxOf limits.lan minIp) < 2 ^ 32
  | .free _ => True

instance (limits : Limits) (t : Tracker) (event : Event) : Decidable (event.Checked limits t) :=
  match event with
  | .alloc original reply _ _ =>
    inferInstanceAs (Decidable ((∀ i ∈ Conn.routedTo limits.lan ⟨original, reply⟩, _) ∧ _))
  | .expect j _ => inferInstanceAs (Decidable (∀ ct ∈ t.live[j]?, _))
  | .dnat _ _ => inferInstanceAs (Decidable (_ < _))
  | .free _ => inferInstanceAs (Decidable True)

theorem index_cases (lan : Lan) (ct : Conn) (host : IsHost (ct.index lan)) :
    (checkLocalIp lan ct.original.dst = false ∧ checkInternalSubnet lan ct.original.src = true ∧
      ct.index lan = ipidxOf lan ct.original.src) ∨ ct.routedTo lan = some (ct.index lan) := by
  unfold IsHost at host
  unfold Conn.routedTo
  rw [index_eq] at host ⊢
  cases localDst : checkLocalIp lan ct.original.dst with
  | true => simp [localDst] at host
  | false =>
    cases internal : checkInternalSubnet lan ct.original.src with
    | true => simp
    | false =>
      cases reply : checkInternalSubnet lan ct.reply.src with
      | true => simp [outsideIndex, reply]
      | false => simp [localDst, internal, outsideIndex, reply] at host

/-! ## The check -/

theorem toUInt32_toNat_of_pos {rate : Int32} (positive : 0 < rate.toInt) : (rate.toUInt32.toNat : Int) = rate.toInt := by
  have cond := BitVec.toInt_eq_toNat_cond rate.toBitVec
  have same : rate.toBitVec.toInt = rate.toInt := rfl
  have same' : rate.toBitVec.toNat = rate.toUInt32.toNat := rfl
  have bound := rate.toUInt32.toNat_lt
  split at cond <;> omega

/-- A check that passes, and does not wrap around, finds room. -/
theorem hasRoom_of_belowRate {count : Nat} (rate : 0 < limits.maxRatePerIp.toInt) (table : 0 < limits.nfConntrackMax)
    (fits : 100 * count < 2 ^ 32) (below : limits.belowRate count = true) : limits.HasRoom count := by
  unfold Limits.belowRate at below
  rw [decide_eq_true_eq, Nat.mod_eq_of_lt (by omega), Nat.div_lt_iff_lt_mul table] at below
  have product : ((count * 100)) < ((limits.maxRatePerIp.toUInt32.toNat * limits.nfConntrackMax) : Int) :=
    Int.ofNat_lt.2 below
  rw [toUInt32_toNat_of_pos rate] at product
  unfold Limits.HasRoom
  omega

theorem limited (rate : 0 < limits.maxRatePerIp.toInt) (table : 0 < limits.nfConntrackMax) :
    limits.unlimited = false := by
  have nonzero : limits.maxRatePerIp ≠ 0 := by
    intro zero
    rw [zero] at rate
    exact absurd rate (by decide)
  simp [Limits.unlimited, nonzero, table.ne']

/-! ## Counters under the cap -/

section

variable {counts : Ipidx → Nat} {i : Ipidx}

theorem UnderCap.raise (under : UnderCap limits counts) (room : IsHost i → limits.HasRoom (counts i)) :
    UnderCap limits (raise counts i) := by
  intro j host positive
  rw [raise_apply] at positive ⊢
  by_cases same : j = i
  · subst same
    simpa using room host
  · simp only [same] at positive ⊢
    exact under j host positive

theorem UnderCap.of_le {counts' : Ipidx → Nat} (under : UnderCap limits counts) (less : ∀ i, counts' i ≤ counts i) :
    UnderCap limits counts' := by
  intro i host positive
  have room := under i host (positive.trans_le (less i))
  have := less i
  unfold Limits.HasRoom at room ⊢
  omega

theorem lower_le (counts : Ipidx → Nat) (i j : Ipidx) : lower counts i j ≤ counts j := by
  rw [lower_apply]
  exact Nat.sub_le _ _

end

/-! ## Every run -/

section

variable (under : UnderCap limits t.countPerIp)

include under

theorem UnderCap.alloc (rate : 0 < limits.maxRatePerIp.toInt)
    (table : 0 < limits.nfConntrackMax) {original reply : Tuple} {dropped memory : Bool}
    (checked : Event.Checked limits t (.alloc original reply dropped memory)) :
    UnderCap limits ((nfConntrackAlloc limits original reply dropped memory t).getD t).countPerIp := by
  rcases alloc_cases limits original reply dropped memory t with same | ⟨passed, new⟩
  · rw [same]
    exact under
  · rw [new]
    refine UnderCap.raise under fun host => ?_
    rcases index_cases limits.lan ⟨original, reply⟩ host with ⟨localDst, internal, index⟩ | routed
    · have checkIndex : getConntrackCountPerIpIndex limits.lan original none = ipidxOf limits.lan original.src := by
        simp only [getConntrackCountPerIpIndex]
        rw [if_neg (by simp [localDst]), if_pos internal]
      rw [index] at host ⊢
      simp only [checkConntrackRatioPerIp, checkIndex] at passed
      rw [if_neg (not_or.2 host), if_neg (by simp [limited rate table])] at passed
      exact hasRoom_of_belowRate rate table checked.2 passed
    · exact checked.1 _ routed host

variable {j : Nat}

theorem UnderCap.expect (rate : 0 < limits.maxRatePerIp.toInt)
    (table : 0 < limits.nfConntrackMax) {redirected : Option Tuple}
    (checked : Event.Checked limits t (.expect j redirected))
    (expected : expectConntrack limits j redirected t = some t') : UnderCap limits t'.countPerIp := by
  obtain ⟨ct, found, rfl⟩ := map_eq_some_iff.1 expected
  have lowered : UnderCap limits (lower t.countPerIp (ct.index limits.lan)) := under.of_le (lower_le _ _)
  refine UnderCap.raise lowered fun host => ?_
  -- the connection stays where it was, or is routed to another host
  by_cases same : Conn.index limits.lan { ct with reply := redirected.getD ct.reply } = ct.index limits.lan
  · rw [same] at host ⊢
    show limits.HasRoom (lower t.countPerIp (ct.index limits.lan) (ct.index limits.lan))
    rw [lower_apply, if_pos rfl]
    rcases Nat.eq_zero_or_pos (t.countPerIp (ct.index limits.lan)) with zero | positive
    · rw [zero]
      have product := Int.mul_pos rate (Int.ofNat_lt.2 table)
      unfold Limits.HasRoom
      exact product
    · exact under _ host positive
  · rcases index_cases limits.lan _ host with ⟨localDst, internal, index⟩ | routed
    · refine absurd ?_ same
      rw [index, index_eq, if_neg (by simpa using localDst), if_pos internal]
    · have room := checked ct found _ routed host same
      show limits.HasRoom (lower t.countPerIp (ct.index limits.lan) _)
      rw [lower_apply, if_neg same]
      exact room

theorem UnderCap.dnat (rate : 0 < limits.maxRatePerIp.toInt) (table : 0 < limits.nfConntrackMax) {minIp : UInt32}
    (checked : Event.Checked limits t (.dnat j minIp)) (moved : iptDnatTarget limits j minIp t = some t') :
    UnderCap limits t'.countPerIp := by
  obtain ⟨ct, found, rfl⟩ := map_eq_some_iff.1 moved
  cases accepted : checkConntrackRatioInDnat limits ct minIp t with
  | none => exact under
  | some u =>
    rcases dnat_accepted accepted with ⟨ordinary, -, below, rfl⟩ | ⟨-, rfl⟩
    · have below := below.resolve_left (by simp [limited rate table])
      have room := hasRoom_of_belowRate rate table checked below
      exact (UnderCap.raise under fun _ => room).of_le (lower_le _ _)
    · exact under

theorem UnderCap.free (freed : nfConntrackFree limits j t = some t') : UnderCap limits t'.countPerIp := by
  obtain ⟨ct, found, rfl⟩ := map_eq_some_iff.1 freed
  rw [(uncountProtocol_keeps _ _).2]
  exact under.of_le (lower_le _ _)

end

/-- **The cap holds** in every run in which every charge for a connection from outside finds room
and no product wraps around: for the count `n` of a host, `100 * (n - 1)` is less than the rate
times the size of the table. -/
theorem cap_holds (limits : Limits) (rate : 0 < limits.maxRatePerIp.toInt) (table : 0 < limits.nfConntrackMax)
    (events : List Event) (t : Tracker)
    (run : Run (fun t event t' => t.step limits event = some t' ∧ event.Checked limits t) Tracker.empty events t)
    (i : Ipidx) (host : IsHost i) (positive : 0 < t.countPerIp i) :
    100 * ((t.countPerIp i : Int) - 1) < limits.maxRatePerIp.toInt * limits.nfConntrackMax := by
  have under : UnderCap limits t.countPerIp := by
    refine run.invariant (I := fun t => UnderCap limits t.countPerIp) ?_ fun _ _ none_ => absurd none_ (Nat.lt_irrefl 0)
    rintro t event t' under ⟨moved, checked⟩
    cases event with
    | alloc original reply dropped memory =>
      obtain rfl := Option.some.inj moved
      exact under.alloc rate table checked
    | expect j redirected => exact under.expect rate table checked moved
    | dnat j minIp => exact under.dnat rate table checked moved
    | free j => exact under.free moved
  have room := under i host positive
  unfold Limits.HasRoom at room
  omega

open Sample

/-- A host opens a connection, and gets a second one through a port forward. -/
def Sample.shared : List Event :=
  [.alloc ⟨host, 0x08080808, ipprotoTcp⟩ ⟨0x08080808, wan, ipprotoTcp⟩ false true,
    .alloc (fromOutside wan) (fromOutside wan).invert false true, .dnat 1 host]

set_option maxRecDepth 4000 in
theorem sample_under_cap :
    ∃ t, Run (fun t event t' => t.step (smallTable 10) event = some t' ∧ event.Checked (smallTable 10) t)
        Tracker.empty shared t ∧
      t.countPerIp hostIdx = 2 ∧ 100 * ((t.countPerIp hostIdx : Int) - 1) < 10 * 100 := by
  have ran : ((replay (fun t event => if event.Checked (smallTable 10) t then
      t.step (smallTable 10) event else none) shared Tracker.empty).map
      fun t => t.countPerIp hostIdx) = some 2 := by decide
  obtain ⟨t, ran, counted⟩ := map_eq_some_iff.1 ran
  have run := run_of_guarded ran
  refine ⟨t, run, counted, ?_⟩
  exact cap_holds (smallTable 10) (by decide) (by decide) shared t run hostIdx
    (by decide) (by rw [counted]; decide)

/-- Two connections that are routed from outside to a LAN host pass, where one is the limit. -/
theorem routed_connections_pass :
    (replay (Tracker.step (smallTable 1))
      (List.replicate 2 (.alloc (fromOutside host) (fromOutside host).invert false true))
      Tracker.empty).map (fun t => t.countPerIp hostIdx) = some 2 ∧ ¬100 * ((2 : Int) - 1) < 1 * 100 := by decide

end RouterApps.Conntrack
