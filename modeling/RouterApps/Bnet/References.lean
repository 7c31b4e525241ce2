/-
# Bnet.References -- the table of connections around the helper (nf_nat_bnet.c, nf_conntrack_core.c)

When the helper has rewritten a packet it looks for a connection of the game traffic and lets its timer
run out.  It searches twice.  `nf_conntrack_find_get` takes a reference to the connection it finds, which
the helper never gives back; the scan of all buckets takes none.

One reference of a connection is that of its timer.  `Balanced` compares all the others before and after, and
`Selective` says that only connections of the game traffic are touched.

* Whatever is in the table, other connections are not touched (`handle_selective`), and the references
  are balanced exactly if the first search finds nothing (`handle_balanced_iff`).
* Both tuples that are searched for have no family, and no tuple without a family gets a port when it
  is put into the table (`run_portless`).  So neither search ever finds anything (`handle_run`).
-/
import RouterApps.Bnet.Help

namespace RouterApps.Bnet

open List Function

/-! ## Connections -/

/-- What references and the timer do to a `struct nf_conn`.  `owned` says that the timer has a
reference, and `waiting` that the connection is on the list of dying ones. -/
structure Ctrack where
  use : Nat
  owned : Bool
  pending : Bool
  dying : Bool
  waiting : Bool
  counted : owned = true → 0 < use
  timed : pending = true → owned = true

namespace Ctrack

/-- Memory that holds no connection. -/
def unused : Ctrack := ⟨0, false, false, false, false, nofun, nofun⟩

/-- A connection that was just put into the table. -/
def fresh : Ctrack := ⟨1, true, true, false, false, fun _ => Nat.one_pos, fun _ => rfl⟩

/-- `nf_conntrack_get` -/
def get (c : Ctrack) : Ctrack := { c with use := c.use + 1, counted := fun _ => Nat.succ_pos _ }

/-- `nf_ct_put` of a reference that is not the one of the timer. -/
def put (c : Ctrack) : Ctrack :=
  if more : c.owned.toNat < c.use then
    { c with
      use := c.use - 1
      counted := fun owned => by
        rw [owned] at more
        exact Nat.sub_pos_of_lt more }
  else c

/-- The end of both timer functions: `nf_ct_put` of the reference of the timer. -/
def die (c : Ctrack) : Ctrack := ⟨c.use - 1, false, false, true, c.waiting, nofun, nofun⟩

end Ctrack

/-- Whether the fast path still has the connection, and whether the event that says that it ends is
delivered. -/
structure Fate where
  confirmed : Bool
  delivered : Bool

/-- `death_by_event`, for a timer that ran: the timer runs again, or the connection dies. -/
def deathByEvent (fate : Fate) (c : Ctrack) : Ctrack := if fate.delivered then c.die else c

/-- `death_by_timeout`, for a timer that ran, and whether the connection leaves the table. -/
def deathByTimeout (fate : Fate) (c : Ctrack) : Ctrack × Bool :=
  if fate.confirmed then (c, false)
  else if !c.dying && !fate.delivered then ({ c with waiting := true }, true)
  else (c.die, true)

/-- `timeout.function` -/
def timerFunction (fate : Fate) (c : Ctrack) : Ctrack × Bool :=
  if c.waiting then (deathByEvent fate c, false) else deathByTimeout fate c

/-! ## The table -/

structure Table where
  hash : List Hashed
  conns : Nat → Ctrack
  next : Nat

namespace Table

def set (net : Table) (c : Nat) (x : Ctrack) : Table := { net with conns := update net.conns c x }

/-- `if (del_timer(&ctrack->timeout)) ctrack->timeout.function((unsigned long)ctrack)` -/
def expire (net : Table) (fate : Fate) (c : Nat) : Table :=
  if (net.conns c).pending then
    let (x, off) := timerFunction fate (net.conns c)
    { net.set c x with hash := if off then timeout net.hash c else net.hash }
  else net

/-- `nf_conntrack_find_get` -/
def findGet (net : Table) (tuple : Tuple) : Option (Hashed × Table) :=
  match net.hash.find? fun h => h.tuple = tuple with
  | none => none
  | some h =>
    let c := net.conns h.ctrack
    if c.dying || c.use = 0 then none else some (h, net.set h.ctrack c.get)

/-- The end of `help`.  What the first search finds is let run out twice, and the scan is left out.
-/
def dropGame (net : Table) (ct : Conn) (first second : Fate) : Table :=
  match net.findGet ct.ctTuple with
  | some (h, net) => (net.expire first h.ctrack).expire second h.ctrack
  | none =>
    match net.hash.find? fun h => ct.udpTupleMaskCmp h.tuple with
    | some h => net.expire second h.ctrack
    | none => net

/-- `bnet_help`, as far as the table is concerned. -/
def handle (net : Table) (ct : Conn) (skb : Skb) (first second : Fate) : Table :=
  if (bnetHelp net.hash ct skb).replaced.isSome then net.dropGame ct first second else net

end Table

/-! ## How the table comes about -/

/-- The families that connections are tracked for, `PF_INET` and `PF_INET6`. -/
inductive Pf
  | inet
  | inet6

def Pf.number : Pf → UInt16
  | .inet => 2
  | .inet6 => 10

/-- `nf_ct_l3protos[l3num]` and `nf_ct_protos[l3num]` are not the generic ones. -/
def registered (l3num : UInt16) : Bool := l3num = Pf.inet.number || l3num = Pf.inet6.number

structure Ends where
  srcIp : UInt32
  srcPort : UInt16
  dstIp : UInt32
  dstPort : UInt16

def Ends.tuple (ends : Ends) (l3num : UInt16) (protonum : UInt8) : Tuple :=
  ⟨l3num, ends.srcIp, ends.srcPort, ends.dstIp, ends.dstPort, protonum⟩

/-- The generic protocols set neither addresses nor ports. -/
def Ends.generic : Ends := ⟨0, 0, 0, 0⟩

/-- `nf_ct_get_tuple`, with the addresses and ports of the packet. -/
def nfCtGetTuple (pf : Pf) (ends : Ends) (protonum : UInt8) : Tuple := ends.tuple pf.number protonum

/-- `ctnetlink_parse_tuple`, with the addresses and ports of the message. -/
def ctnetlinkParseTuple (u3 : UInt8) (ends : Ends) (protonum : UInt8) : Tuple :=
  (if registered u3.toUInt16 then ends else Ends.generic).tuple u3.toUInt16 protonum

/-- `nf_ct_invert_tuple`; what the protocols of a family do is a parameter. -/
def nfCtInvertTuple (inverse : Tuple → Ends) (orig : Tuple) : Tuple :=
  (if registered orig.l3num then inverse orig else Ends.generic).tuple orig.l3num orig.protonum

/-- Where a connection comes from.  `mapped` is the tuple that address translation made. -/
inductive Origin
  | packet (pf : Pf) (ends : Ends) (protonum : UInt8) (mapped : Tuple)
  | netlink (u3 : UInt8) (original reply : Ends) (protonum replyProtonum : UInt8) (mapped : Option Tuple)

def Origin.tuples (inverse : Tuple → Ends) : Origin → Tuple × Tuple
  | packet pf ends protonum mapped => (nfCtGetTuple pf ends protonum, nfCtInvertTuple inverse mapped)
  | netlink u3 original reply protonum replyProtonum mapped =>
    (ctnetlinkParseTuple u3 original protonum,
      (mapped.map (nfCtInvertTuple inverse)).getD (ctnetlinkParseTuple u3 reply replyProtonum))

inductive TableOp
  | insert (origin : Origin)
  | expire (c : Nat) (fate : Fate)
  | get (c : Nat)
  | put (c : Nat)
  | handle (ct : Conn) (skb : Skb) (first second : Fate)

namespace Table

def start : Table := ⟨[], fun _ => Ctrack.unused, 0⟩

section

variable (inverse : Tuple → Ends)

/-- `nf_conntrack_hash_insert`, with the timer started. -/
def insert (net : Table) (origin : Origin) : Table where
  hash := ⟨(origin.tuples inverse).1, net.next⟩ :: ⟨(origin.tuples inverse).2, net.next⟩ :: net.hash
  conns := update net.conns net.next Ctrack.fresh
  next := net.next + 1

def step (net : Table) : TableOp → Table
  | .insert origin => net.insert inverse origin
  | .expire c fate => net.expire fate c
  | .get c => net.set c (net.conns c).get
  | .put c => net.set c (net.conns c).put
  | .handle ct skb first second => net.handle ct skb first second

def run (ops : List TableOp) : Table := ops.foldl (step inverse) start

end

end Table

/-! ## References -/

/-- Apart from the one of the timer, every connection has as many references as before. -/
def Balanced (net net' : Table) : Prop :=
  ∀ c, (net'.conns c).use + (net.conns c).owned.toNat = (net.conns c).use + (net'.conns c).owned.toNat

theorem Balanced.refl (net : Table) : Balanced net net := fun _ => rfl

variable {net' : Table} {c : Nat} {h : Hashed}

theorem Balanced.trans {net net'' : Table} (first : Balanced net net') (second : Balanced net' net'') :
    Balanced net net'' := by
  intro c
  have := first c
  have := second c
  omega

/-- Dying gives back the reference of the timer and no other. -/
theorem Ctrack.die_balanced {c : Ctrack} (owned : c.owned = true) :
    c.die.use + c.owned.toNat = c.use + c.die.owned.toNat := by
  have := c.counted owned
  simp only [Ctrack.die, owned, Bool.toNat_true, Bool.toNat_false]
  omega

theorem timerFunction_balanced (fate : Fate) {c : Ctrack} (pending : c.pending = true) :
    (timerFunction fate c).1.use + c.owned.toNat = c.use + (timerFunction fate c).1.owned.toNat := by
  have dies := Ctrack.die_balanced (c.timed pending)
  unfold timerFunction deathByEvent deathByTimeout
  split
  · split
    · exact dies
    · rfl
  · split
    · rfl
    · split
      · rfl
      · exact dies

variable {net : Table} {skb : Skb} {ct : Conn} {tuple : Tuple}

namespace Table

theorem expire_balanced (net : Table) (fate : Fate) (c : Nat) : Balanced net (net.expire fate c) := by
  unfold expire
  split
  · rename_i pending
    intro d
    by_cases same : d = c
    · subst same
      simpa [set] using timerFunction_balanced fate pending
    · simp [set, same]
  · exact Balanced.refl net

theorem findGet_eq_some (found : net.findGet tuple = some (h, net')) :
    h ∈ net.hash ∧ h.tuple = tuple ∧ net' = net.set h.ctrack (net.conns h.ctrack).get := by
  unfold findGet at found
  split at found
  · cases found
  · rename_i g here
    simp only [Option.ite_none_left_eq_some] at found
    obtain ⟨-, rfl, rfl⟩ := found
    exact ⟨mem_of_find?_eq_some here, by simpa using find?_some here, rfl⟩

/-- What the first search finds is run out twice, what the scan finds once. -/
theorem handle_cases (net : Table) (ct : Conn) (skb : Skb) (first second : Fate) :
    ((bnetHelp net.hash ct skb).replaced.isSome = true ∧ ∃ h ∈ net.hash, h.tuple = ct.ctTuple ∧
      (net.findGet ct.ctTuple).isSome = true ∧ net.handle ct skb first second =
        ((net.set h.ctrack (net.conns h.ctrack).get).expire first h.ctrack).expire second h.ctrack) ∨
    (((bnetHelp net.hash ct skb).replaced.isSome = true → net.findGet ct.ctTuple = none) ∧
      ((∃ h ∈ net.hash, ct.udpTupleMaskCmp h.tuple = true ∧
          net.handle ct skb first second = net.expire second h.ctrack) ∨
        net.handle ct skb first second = net)) := by
  unfold handle
  by_cases rewritten : (bnetHelp net.hash ct skb).replaced.isSome = true
  · rw [if_pos rewritten, dropGame]
    cases found : net.findGet ct.ctTuple with
    | some hit =>
      obtain ⟨h, net'⟩ := hit
      obtain ⟨inside, is, rfl⟩ := findGet_eq_some found
      exact .inl ⟨rewritten, h, inside, is, rfl, rfl⟩
    | none =>
      refine .inr ⟨fun _ => rfl, ?_⟩
      cases scanned : net.hash.find? fun h => ct.udpTupleMaskCmp h.tuple with
      | some h =>
        have same : ct.udpTupleMaskCmp h.tuple = true := by simpa using find?_some scanned
        exact .inl ⟨h, mem_of_find?_eq_some scanned, same, rfl⟩
      | none => exact .inr rfl
  · rw [if_neg rewritten]
    exact .inr ⟨fun is => absurd is rewritten, .inr rfl⟩

/-- The reference that the first search takes is not given back. -/
theorem not_balanced_of_get (after : Balanced (net.set c (net.conns c).get) net') : ¬ Balanced net net' := by
  intro balanced
  have taken := after c
  have := balanced c
  simp only [set, update_self, Ctrack.get] at taken
  omega

/-- **References.**  All that the helper takes are given back exactly if it does not rewrite the
packet or its first search finds nothing. -/
theorem handle_balanced_iff (net : Table) (ct : Conn) (skb : Skb) (first second : Fate) :
    Balanced net (net.handle ct skb first second) ↔
      ((bnetHelp net.hash ct skb).replaced.isSome = true → net.findGet ct.ctTuple = none) := by
  rcases handle_cases net ct skb first second with
    ⟨rewritten, h, -, -, found, went⟩ | ⟨quiet, ⟨h, -, -, went⟩ | went⟩
  · have after := (expire_balanced (net.set h.ctrack (net.conns h.ctrack).get) first h.ctrack).trans
      (expire_balanced _ second h.ctrack)
    rw [went]
    refine iff_of_false (not_balanced_of_get after) fun quiet => ?_
    simp [quiet rewritten] at found
  · rw [went]
    exact iff_of_true (expire_balanced net second h.ctrack) quiet
  · rw [went]
    exact iff_of_true (Balanced.refl net) quiet

end Table

/-! ## Other connections -/

/-- UDP between the server and the client, at the client's address or at the one the router uses for
it. -/
def Conn.GameTraffic (ct : Conn) (tuple : Tuple) : Prop :=
  tuple.protonum = ipprotoUdp ∧
    ((tuple.srcIp = ct.original.srcIp ∧ tuple.dstIp = ct.original.dstIp) ∨
      (tuple.srcIp = ct.original.dstIp ∧ tuple.dstIp = ct.reply.dstIp))

theorem Conn.gameTraffic_ctTuple (ct : Conn) : ct.GameTraffic ct.ctTuple := ⟨rfl, Or.inl ⟨rfl, rfl⟩⟩

theorem Conn.gameTraffic_of_maskCmp {ct : Conn} (same : ct.udpTupleMaskCmp tuple = true) :
    ct.GameTraffic tuple := by
  simp only [Conn.udpTupleMaskCmp, Bool.and_eq_true, decide_eq_true_eq] at same
  obtain ⟨⟨⟨⟨src, -⟩, udp⟩, dst⟩, -⟩ := same
  exact ⟨udp, .inr ⟨src, dst⟩⟩

/-- The connection and its entries are as before. -/
def Untouched (net net' : Table) (c : Nat) : Prop :=
  net'.conns c = net.conns c ∧ ∀ h ∈ net.hash, h.ctrack = c → h ∈ net'.hash

/-- Only connections of the game traffic are touched. -/
def Selective (ct : Conn) (net net' : Table) : Prop :=
  ∀ c, Untouched net net' c ∨ ∃ h ∈ net.hash, h.ctrack = c ∧ ct.GameTraffic h.tuple

theorem Untouched.refl (net : Table) (c : Nat) : Untouched net net c := ⟨rfl, fun _ inside _ => inside⟩

theorem Untouched.trans {net net'' : Table} (first : Untouched net net' c)
    (second : Untouched net' net'' c) : Untouched net net'' c :=
  ⟨second.1.trans first.1, fun h inside same => second.2 h (first.2 h inside same) same⟩

theorem selective_of_untouched {ct : Conn} {net : Table} (inside : h ∈ net.hash)
    (game : ct.GameTraffic h.tuple) (others : ∀ c, c ≠ h.ctrack → Untouched net net' c) : Selective ct net net' := by
  intro c
  by_cases same : c = h.ctrack
  · exact .inr ⟨h, inside, same.symm, game⟩
  · exact .inl (others c same)

namespace Table

theorem set_untouched (net : Table) {d : Nat} (x : Ctrack) (other : d ≠ c) : Untouched net (net.set c x) d :=
  ⟨update_of_ne other _ _, fun _ inside _ => inside⟩

theorem expire_untouched (net : Table) (fate : Fate) {d : Nat} (other : d ≠ c) :
    Untouched net (net.expire fate c) d := by
  unfold expire
  split
  · refine ⟨update_of_ne other _ _, fun h inside same => ?_⟩
    dsimp only
    split
    · exact mem_filter.2 ⟨inside, by simpa [same] using other⟩
    · exact inside
  · exact Untouched.refl net d

/-- **Other connections.**  Only UDP connections between the client and the server are let run out.
-/
theorem handle_selective (net : Table) (ct : Conn) (skb : Skb) (first second : Fate) :
    Selective ct net (net.handle ct skb first second) := by
  rcases handle_cases net ct skb first second with
    ⟨-, h, inside, is, -, went⟩ | ⟨-, ⟨h, inside, same, went⟩ | went⟩
  · rw [went]
    refine selective_of_untouched inside (is ▸ ct.gameTraffic_ctTuple) fun c other => ?_
    exact ((set_untouched net _ other).trans (expire_untouched _ first other)).trans (expire_untouched _ second other)
  · rw [went]
    exact selective_of_untouched inside (Conn.gameTraffic_of_maskCmp same) fun c other => expire_untouched net second other
  · rw [went]
    exact fun c => .inl (Untouched.refl net c)

end Table

/-! ## Tables that come about -/

/-- Without a family there are no ports. -/
def Portless (tuple : Tuple) : Prop := tuple.l3num = 0 → tuple.srcPort = 0 ∧ tuple.dstPort = 0

theorem portless_tuple {l3num : UInt16} (ends : Ends) (protonum : UInt8) :
    Portless ((if registered l3num then ends else Ends.generic).tuple l3num protonum) := by
  intro none
  have unset : l3num = 0 := none
  subst unset
  exact ⟨rfl, rfl⟩

theorem portless_nfCtGetTuple (pf : Pf) (ends : Ends) (protonum : UInt8) :
    Portless (nfCtGetTuple pf ends protonum) := by
  intro none
  have family : pf.number = 0 := none
  cases pf with
  | inet | inet6 => exact absurd family (by decide)

/-- Every tuple of a connection has a family or no ports. -/
theorem Origin.portless (inverse : Tuple → Ends) (origin : Origin) :
    Portless (origin.tuples inverse).1 ∧ Portless (origin.tuples inverse).2 := by
  cases origin with
  | packet pf ends protonum mapped => exact ⟨portless_nfCtGetTuple pf ends protonum, portless_tuple _ _⟩
  | netlink u3 original reply protonum replyProtonum mapped =>
    refine ⟨portless_tuple _ _, ?_⟩
    cases mapped with
    | none | some mapped => exact portless_tuple _ _

namespace Table

theorem mem_of_mem_expire {fate : Fate} (inside : h ∈ (net.expire fate c).hash) : h ∈ net.hash := by
  unfold expire at inside
  split at inside
  · dsimp only at inside
    split at inside
    · exact mem_of_mem_filter inside
    · exact inside
  · exact inside

theorem ne_ctTuple_of_portless (portless : Portless h.tuple) : h.tuple ≠ ct.ctTuple := by
  intro is
  rw [is] at portless
  have port : bnetPort = 0 := (portless rfl).1
  exact absurd port (by decide)

theorem maskCmp_of_portless (portless : Portless h.tuple) : ct.udpTupleMaskCmp h.tuple ≠ true := by
  intro same
  simp only [Conn.udpTupleMaskCmp, Bool.and_eq_true, decide_eq_true_eq] at same
  obtain ⟨⟨⟨⟨-, family⟩, -⟩, -⟩, port⟩ := same
  rw [(portless family).2] at port
  exact absurd port (by decide)

theorem findGet_of_portless (portless : ∀ h ∈ net.hash, Portless h.tuple) : net.findGet ct.ctTuple = none := by
  cases found : net.findGet ct.ctTuple with
  | none => rfl
  | some hit =>
    obtain ⟨inside, is, -⟩ := findGet_eq_some found
    exact absurd is (ne_ctTuple_of_portless (portless _ inside))

/-- In a table without ports of no family, nothing is found and nothing is done. -/
theorem handle_of_portless (portless : ∀ h ∈ net.hash, Portless h.tuple) (first second : Fate) :
    net.handle ct skb first second = net := by
  rcases handle_cases net ct skb first second with
    ⟨-, h, inside, is, -, -⟩ | ⟨-, ⟨h, inside, same, -⟩ | went⟩
  · exact absurd is (ne_ctTuple_of_portless (portless h inside))
  · exact absurd same (maskCmp_of_portless (portless h inside))
  · exact went

section

variable (inverse : Tuple → Ends)

theorem step_portless (portless : ∀ h ∈ net.hash, Portless h.tuple) (op : TableOp) :
    ∀ h ∈ (net.step inverse op).hash, Portless h.tuple := by
  cases op with
  | insert origin =>
    obtain ⟨original, reply⟩ := origin.portless inverse
    exact forall_mem_cons.2 ⟨original, forall_mem_cons.2 ⟨reply, portless⟩⟩
  | expire c fate => exact fun h inside => portless h (mem_of_mem_expire inside)
  | get c | put c => exact portless
  | handle ct skb first second =>
    rw [step, handle_of_portless portless]
    exact portless

variable (ops : List TableOp)

theorem run_portless : ∀ h ∈ (run inverse ops).hash, Portless h.tuple := by
  refine List.foldlRecOn (motive := fun net => ∀ h ∈ net.hash, Portless h.tuple) ops (step inverse) ?_ ?_
  · intro h inside
    cases inside
  · exact fun net portless op _ => step_portless inverse portless op

/-- No call of the helper changes a table that came about. -/
theorem handle_run (ct : Conn) (skb : Skb) (first second : Fate) :
    (run inverse ops).handle ct skb first second = run inverse ops :=
  handle_of_portless (run_portless inverse ops) first second

/-- **References and other connections**, in every table that comes about and for every packet. -/
theorem help_balanced_and_selective (ops : List TableOp) (ct : Conn) (skb : Skb) (first second : Fate) :
    Balanced (run inverse ops) ((run inverse ops).handle ct skb first second) ∧
      Selective ct (run inverse ops) ((run inverse ops).handle ct skb first second) := by
  refine ⟨(handle_balanced_iff _ ct skb first second).2 fun _ => ?_, handle_selective _ ct skb first second⟩
  exact findGet_of_portless (run_portless inverse ops)

end

end Table

end RouterApps.Bnet
