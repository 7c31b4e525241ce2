/-
# Bridge.Flood -- who owns a frame that the bridge sends to its ports (br_forward.c)

`br_flood_deliver` is given a buffer and has to pass it on or free it.  `br_flood` clones the buffer
for each port but the last; where a clone cannot be had it frees the buffer and stops.  A multicast
frame goes to the first port that forwards.  The acts on buffers are listed in order: buffer 0 is the
one given, buffer `n` the `n`th clone.  A packet hook takes its buffer over.

* `br_flood` passes the buffer on once or frees it once (`consumed_floodFrom`), and each clone that
  was made is passed on once (`clones_brFloodDeliver`);
* the branch for multicast frames has no such end if no port forwards (`flood_deliver_once_iff`).
-/
import RouterApps.Bridge.Trunk
import RouterApps.CLib.Memory

namespace RouterApps.Bridge

open CLib List

/-! ## Frames -/

/-- What the forwarding decision reads of a frame: its destination, its device, and the port that
the device is, if it is one. -/
structure Skb where
  dest : Block 6
  dev : Nat
  brPort : Option Nat

def isMulticastEtherAddr (addr : Block 6) : Bool := addr.bytes.head?.any fun b => b &&& 0x01 ≠ 0

def isBroadcastEtherAddr (addr : Block 6) : Bool := addr.bytes.all fun b => b = 0xff

inductive Act where
  | clone (buffer : Nat)
  | txDropped
  | transmit (portNo : Nat) (buffer : Nat)
  | free (buffer : Nat)
deriving DecidableEq

/-- The buffer is given away. -/
def Act.consumes (buffer : Nat) : Act → Bool
  | .clone _ => false
  | .txDropped => false
  | .transmit _ b => b = buffer
  | .free b => b = buffer

def Act.makes (buffer : Nat) : Act → Bool
  | .clone b => b = buffer
  | .txDropped | .transmit _ _ | .free _ => false

/-- How often a buffer is passed on or freed. -/
def consumed (acts : List Act) (buffer : Nat) : Nat := acts.countP (Act.consumes buffer)

/-- How often a clone comes into being. -/
def made (acts : List Act) (buffer : Nat) : Nat := acts.countP (Act.makes buffer)

section

-- The device of each port, and whether there is memory for the `n`th clone.
variable (dev : Port → Nat) (clones : Nat → Bool) (skb : Skb)

def shouldDeliver (p : Port) : Bool :=
  if skb.brPort.any fun portNo => bit p.trunkMap (portNo - 1) then false
  else skb.dev ≠ dev p && p.stp.state = .forwarding

def brDeliver (p : Port) : List Act := if shouldDeliver dev skb p then [.transmit p.portNo 0] else [.free 0]

/-- The loop of `br_flood` and what follows it, with the port still to be served and the number of
clones. -/
def floodFrom : List Port → Option Port → Nat → List Act
  | [], some prev, _ => [.transmit prev.portNo 0]
  | [], none, _ => [.free 0]
  | p :: rest, prev, n =>
    if shouldDeliver dev skb p then
      match prev with
      | none => floodFrom rest (some p) n
      | some q =>
        if clones (n + 1) then .clone (n + 1) :: .transmit q.portNo (n + 1) :: floodFrom rest (some p) (n + 1)
        else [.txDropped, .free 0]
    else floodFrom rest prev n

def brFlood (br : NetBridge) : List Act := floodFrom dev clones skb br.ports none 0

def brFloodDeliver (br : NetBridge) : List Act :=
  if isMulticastEtherAddr skb.dest && !isBroadcastEtherAddr skb.dest then
    -- The loop is left after the first port that forwards.
    match br.ports.find? fun p => p.stp.state = .forwarding with
    | some p => brDeliver dev skb p
    | none => []
  else brFlood dev clones skb br

end

/-! ## Buffers -/

variable {dev : Port → Nat} {clones : Nat → Bool} {skb : Skb}

theorem consumed_brDeliver (p : Port) : consumed (brDeliver dev skb p) 0 = 1 := by
  unfold brDeliver
  split <;> rfl

variable {buffer : Nat} (ports : List Port) (prev : Option Port) (n : Nat)

/-- **`br_flood` gives the buffer away once**, wherever it stops. -/
theorem consumed_floodFrom : consumed (floodFrom dev clones skb ports prev n) 0 = 1 := by
  fun_induction floodFrom dev clones skb ports prev n with
  | case1 | case2 | case5 => simp [consumed, Act.consumes]
  | case3 | case6 => assumption
  | case4 _ _ _ _ _ _ ih => simpa [consumed, Act.consumes] using ih

theorem consumed_eq_made (clone : buffer ≠ 0) :
    consumed (floodFrom dev clones skb ports prev n) buffer = made (floodFrom dev clones skb ports prev n) buffer := by
  fun_induction floodFrom dev clones skb ports prev n with
  | case1 | case2 | case5 => simp [consumed, made, Act.consumes, Act.makes, clone.symm]
  | case3 | case6 => assumption
  | case4 _ _ _ _ _ _ ih => simpa [consumed, made, countP_cons, Act.consumes, Act.makes] using ih

/-- Clones are numbered from the next number on, and none is made twice. -/
theorem made_floodFrom (buffer : Nat) : made (floodFrom dev clones skb ports prev n) buffer ≤ 1 ∧
      (buffer ≤ n → made (floodFrom dev clones skb ports prev n) buffer = 0) := by
  fun_induction floodFrom dev clones skb ports prev n with
  | case1 | case2 | case5 => simp [made, Act.makes]
  | case3 | case6 => assumption
  | case4 _ _ n _ _ _ ih =>
    obtain ⟨once, later⟩ := ih
    simp only [made] at once later
    simp only [made, countP_cons, Act.makes, decide_eq_true_eq]
    by_cases own : n + 1 = buffer
    · rw [later (by omega), if_pos own]
      exact ⟨Nat.le_refl 1, by omega⟩
    · simp only [own]
      exact ⟨once, fun below => later (by omega)⟩

theorem clones_brDeliver (dev : Port → Nat) (skb : Skb) (p : Port) (clone : buffer ≠ 0) :
    consumed (brDeliver dev skb p) buffer = 0 ∧ made (brDeliver dev skb p) buffer = 0 := by
  unfold brDeliver
  split <;> simp [consumed, made, Act.consumes, Act.makes, clone.symm]

/-- **No clone of `br_flood_deliver` is lost or used twice**; the buffer itself has the number 0. -/
theorem clones_brFloodDeliver (br : NetBridge) (k : Nat) :
    consumed (brFloodDeliver dev clones skb br) (k + 1) = made (brFloodDeliver dev clones skb br) (k + 1) ∧
      made (brFloodDeliver dev clones skb br) (k + 1) ≤ 1 := by
  have clone := k.succ_ne_zero
  unfold brFloodDeliver
  split
  · cases br.ports.find? fun p => p.stp.state = .forwarding with
    | none => exact ⟨rfl, Nat.zero_le 1⟩
    | some p =>
      obtain ⟨used, cloned⟩ := clones_brDeliver dev skb p clone
      simp only [used, cloned]
      decide
  · exact ⟨consumed_eq_made br.ports none 0 clone, (made_floodFrom br.ports none 0 (k + 1)).1⟩

/-- **`br_flood_deliver` gives the buffer away exactly once unless the frame is multicast and no
port forwards.** -/
theorem flood_deliver_once_iff (dev : Port → Nat) (clones : Nat → Bool) (skb : Skb) (br : NetBridge) :
    consumed (brFloodDeliver dev clones skb br) 0 = 1 ↔
      (isMulticastEtherAddr skb.dest = true ∧ isBroadcastEtherAddr skb.dest = false →
        ∃ p ∈ br.ports, p.stp.state = .forwarding) := by
  unfold brFloodDeliver
  by_cases multicast : isMulticastEtherAddr skb.dest = true ∧ isBroadcastEtherAddr skb.dest = false
  · simp only [multicast, true_imp_iff, and_self]
    cases found : br.ports.find? fun p => p.stp.state = .forwarding with
    | some p =>
      have forwards : p.stp.state = .forwarding := by simpa using find?_some found
      exact iff_of_true (consumed_brDeliver p) ⟨p, mem_of_find?_eq_some found, forwards⟩
    | none =>
      have others := find?_eq_none.1 found
      refine iff_of_false Nat.zero_ne_one ?_
      rintro ⟨p, inList, forwards⟩
      exact others p inList (by simpa using forwards)
  · rw [if_neg (by simpa using multicast)]
    exact iff_of_true (consumed_floodFrom br.ports none 0) fun both => absurd both multicast

/-- A frame for 01:00:5e:00:00:01 from the bridge itself. -/
def allHostsFrame : Skb := ⟨⟨[0x01, 0x00, 0x5e, 0x00, 0x00, 0x01], rfl⟩, 0, none⟩

/-- While all ports are blocked, the buffer of a multicast frame is lost. -/
theorem multicast_frame_leaks :
    brFloodDeliver Port.portNo (fun _ => true) allHostsFrame (sampleBridge fun _ => 0) = [] ∧
      consumed (brFloodDeliver Port.portNo (fun _ => true) allHostsFrame (sampleBridge fun _ => 0)) 0 = 0 := by
  decide

end RouterApps.Bridge
