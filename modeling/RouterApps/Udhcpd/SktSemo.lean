/-
# Udhcpd.SktSemo -- forwards for the devices of one operator (skt_semo.c)

When a device of a vendor in the table is acknowledged, the server forwards the ports that
the table lists for its vendor to the device's new address.  A forward is a rule of the
virtual server database, with a name made of the last three bytes of the hardware address
and the port.  The server removes the rules of that name and adds one.

The vendor is not in the name.  Two vendors share some ports, so of two devices with the
same last three bytes the one acknowledged last takes the forward of a shared port from
the other (`forward_displaced`).  `forwards_kept_iff` says when that does not matter.

The functions `netfilter_*_app_*` are not in the repository.  As far as they are used here,
the database is a list of rules, `netfilter_remove_app_rulelist` deletes those of a name
and `netfilter_add_app_rule` appends one.
-/
import RouterApps.CLib.Printf
import RouterApps.Theory.Named

namespace RouterApps.Udhcpd.SktSemo

open CLib Theory.Named List Option

/-! ## Data -/

/-- `chaddr[0]`, `chaddr[1]`, `chaddr[2]`. -/
abbrev Oui := UInt8 × UInt8 × UInt8

/-- `chaddr[3]`, `chaddr[4]`, `chaddr[5]`. -/
abbrev Tail := UInt8 × UInt8 × UInt8

/-- A hardware address. -/
structure Mac where
  oui : Oui
  tail : Tail
deriving DecidableEq

/-- `struct skt_semo_rule_t`. -/
structure Row where
  oui : Oui
  protocol : List UInt8
  sport : Nat
deriving DecidableEq

def endOfTable : Oui := (0x00, 0x00, 0x00)

def sktSemoRule : List Row :=
  [⟨(0x00, 0x1b, 0xa6), ascii ['a', 'l', 'l'], 20406⟩, ⟨(0x00, 0x1b, 0xa6), ascii ['a', 'l', 'l'], 20407⟩,
    ⟨(0x00, 0x1b, 0xa6), ascii ['a', 'l', 'l'], 20408⟩,
    ⟨(0x00, 0x1b, 0xa6), ascii ['a', 'l', 'l'], 20409⟩,
    ⟨(0x00, 0x1b, 0xa6), ascii ['a', 'l', 'l'], 20410⟩,
    ⟨(0x00, 0x17, 0xbd), ascii ['a', 'l', 'l'], 8000⟩,
    ⟨(0x00, 0x17, 0xbd), ascii ['a', 'l', 'l'], 9091⟩,
    ⟨(0x00, 0x17, 0xbd), ascii ['a', 'l', 'l'], 9092⟩,
    ⟨(0x00, 0x25, 0xc2), ascii ['a', 'l', 'l'], 65500⟩,
    ⟨(0x00, 0x19, 0x19), ascii ['a', 'l', 'l'], 7000⟩,
    ⟨(0x00, 0x1c, 0x46), ascii ['a', 'l', 'l'], 8000⟩,
    ⟨(0x00, 0x1c, 0x46), ascii ['a', 'l', 'l'], 9091⟩,
    ⟨(0x8c, 0xe7, 0x48), ascii ['a', 'l', 'l'], 554⟩,
    ⟨(0x8c, 0xe7, 0x48), ascii ['a', 'l', 'l'], 8000⟩,
    ⟨(0x8c, 0xe7, 0x48), ascii ['a', 'l', 'l'], 9091⟩,
    ⟨(0x00, 0x14, 0x1f), ascii ['a', 'l', 'l'], 554⟩,
    ⟨(0x00, 0x14, 0x1f), ascii ['a', 'l', 'l'], 8000⟩,
    ⟨(0x00, 0x14, 0x1f), ascii ['a', 'l', 'l'], 9091⟩,
    ⟨(0x00, 0x14, 0x1f), ascii ['a', 'l', 'l'], 11001⟩,
    ⟨endOfTable, [], 0⟩]

/-- The constants of the headers that `file_forward_rule` uses. -/
structure Headers where
  ifLocal : List UInt8
  inputInterfaceNot : UInt32
  dnatTarget : UInt32
  internalForwardRule : UInt32

/-- The fields of `netfilter_rule_t` that are written; the others are 0. -/
structure NetfilterRule where
  ruleName : List UInt8
  protocol : List UInt8
  dstPortStart : Nat
  dstPortEnd : Nat
  ipStart : UInt32
  tableName : List UInt8
  chainName : List UInt8
  iifname : List UInt8
  notFlag : UInt32
  targetType : UInt32
  flag : UInt32
deriving DecidableEq

/-- The rules of `app_rule_db_t`. -/
abbrev AppRuleDb := List NetfilterRule

/-! ## The option -/

/-- `file_forward_rule`, on a rule that has its name. -/
def fileForwardRule (headers : Headers) (row : Row) (ipaddr : UInt32) (ruleName : List UInt8) : NetfilterRule where
  ruleName := ruleName
  protocol := row.protocol
  dstPortStart := row.sport
  dstPortEnd := 0
  ipStart := ntohl ipaddr
  tableName := ascii ['n', 'a', 't']
  chainName := ascii ['a', 'p', 'p', '_', 'p', 'o', 'r', 't', 'f', 'o', 'r', 'w', 'a', 'r', 'd']
  iifname := headers.ifLocal
  notFlag := headers.inputInterfaceNot
  targetType := headers.dnatTarget
  flag := headers.internalForwardRule

/-- `"%02x%02x%02x_%d"`. -/
def rulename (tail : Tail) (sport : Nat) : List UInt8 :=
  lowerHexByte tail.1 ++ lowerHexByte tail.2.1 ++ lowerHexByte tail.2.2 ++ ascii ['_'] ++ digits 10 sport

/-- The rows that a loop visits. -/
def rows : List Row := sktSemoRule.takeWhile fun row => row.oui ≠ endOfTable

def netfilterRemoveAppRulelist (db : AppRuleDb) (name : List UInt8) : AppRuleDb :=
  db.filter fun rule => rule.ruleName ≠ name

def netfilterAddAppRule (db : AppRuleDb) (rule : NetfilterRule) : AppRuleDb := db ++ [rule]

/-- The body of the second loop, for a row of the vendor. -/
def applyRow (headers : Headers) (chaddr : Mac) (yiaddr : UInt32) (db : AppRuleDb) (row : Row) : AppRuleDb :=
  let name := rulename chaddr.tail row.sport
  netfilterAddAppRule (netfilterRemoveAppRulelist db name) (fileForwardRule headers row yiaddr name)

def doSktSemoOption (headers : Headers) (db : AppRuleDb) (chaddr : Mac) (yiaddr : UInt32) : AppRuleDb :=
  if rows.any fun row => chaddr.oui = row.oui then
    rows.foldl (fun db row => if chaddr.oui = row.oui then applyRow headers chaddr yiaddr db row else db) db
  else db

/-- An acknowledgement: the device and its address, in network order. -/
structure Ack where
  chaddr : Mac
  yiaddr : UInt32
deriving DecidableEq

/-- The database after acknowledgements, from an empty one. -/
def ruleDb (headers : Headers) (acks : List Ack) : AppRuleDb :=
  acks.foldl (fun db ack => doSktSemoOption headers db ack.chaddr ack.yiaddr) []

/-! ## The rules of an acknowledgement -/

variable {headers : Headers} {acks : List Ack}

/-- The table lists the port for the vendor of the device. -/
def HasPort (chaddr : Mac) (sport : Nat) : Prop := ∃ row ∈ rows, row.oui = chaddr.oui ∧ row.sport = sport

instance (chaddr : Mac) (sport : Nat) : Decidable (HasPort chaddr sport) :=
  inferInstanceAs (Decidable (∃ row ∈ rows, row.oui = chaddr.oui ∧ row.sport = sport))

/-- The rule that forwards a port to an address.  Every row of the table is for all protocols. -/
def forward (headers : Headers) (tail : Tail) (sport : Nat) (ipaddr : UInt32) : NetfilterRule :=
  fileForwardRule headers ⟨endOfTable, ascii ['a', 'l', 'l'], sport⟩ ipaddr (rulename tail sport)

def ports (oui : Oui) : List Nat := (rows.filter fun row => oui = row.oui).map Row.sport

variable {sport : Nat} {tail : Tail}

theorem mem_ports {chaddr : Mac} : sport ∈ ports chaddr.oui ↔ HasPort chaddr sport := by
  simp only [ports, List.mem_map, mem_filter, decide_eq_true_eq, and_assoc]
  exact exists_congr fun row => and_congr_right fun _ => and_congr_left fun _ => eq_comm

theorem ports_nodup (oui : Oui) : (ports oui).Nodup := by
  have listed : (rows.map fun row => (row.oui, row.sport)).Nodup := by decide
  have own : (rows.filter fun row => oui = row.oui).Pairwise fun a b => (a.oui, a.sport) ≠ (b.oui, b.sport) :=
    List.Pairwise.sublist filter_sublist (pairwise_map.1 listed)
  refine pairwise_map.2 (own.imp_of_mem fun {a b} first second apart same => apart ?_)
  have vendor : oui = a.oui := by simpa using (mem_filter.1 first).2
  have vendor' : oui = b.oui := by simpa using (mem_filter.1 second).2
  rw [← vendor, ← vendor', same]

theorem port_bound {chaddr : Mac} (listed : HasPort chaddr sport) : sport < 10 ^ 10 := by
  obtain ⟨row, member, -, rfl⟩ := listed
  have all : ∀ row ∈ rows, row.sport < 10 ^ 10 := by decide
  exact all row member

variable {sport' : Nat}

theorem rulename_inj {tail' : Tail} (bound : sport < 10 ^ 10) (bound' : sport' < 10 ^ 10) :
    rulename tail sport = rulename tail' sport' ↔ tail = tail' ∧ sport = sport' := by
  constructor
  · intro same
    simp only [rulename, append_assoc] at same
    obtain ⟨first, same⟩ := append_inj same rfl
    obtain ⟨second, same⟩ := append_inj same rfl
    obtain ⟨third, same⟩ := append_inj same rfl
    have port := digits_injective bound bound' (append_inj same rfl).2
    exact ⟨Prod.ext (lowerHexByte_injective first)
      (Prod.ext (lowerHexByte_injective second) (lowerHexByte_injective third)), port⟩
  · rintro ⟨rfl, rfl⟩
    rfl

theorem foldl_applyRow (chaddr : Mac) (yiaddr : UInt32) {own : List Row}
    (protocol : ∀ row ∈ own, row.protocol = ascii ['a', 'l', 'l']) (db : AppRuleDb) :
    own.foldl (applyRow headers chaddr yiaddr) db =
      ((own.map Row.sport).map fun sport => forward headers chaddr.tail sport yiaddr).foldl
        (store NetfilterRule.ruleName) db := by
  induction own generalizing db with
  | nil => rfl
  | cons row own ih =>
    have one : applyRow headers chaddr yiaddr db row =
        store NetfilterRule.ruleName db (forward headers chaddr.tail row.sport yiaddr) := by
      have rule : fileForwardRule headers row yiaddr (rulename chaddr.tail row.sport) =
          forward headers chaddr.tail row.sport yiaddr := by
        simp [forward, fileForwardRule, protocol row mem_cons_self]
      simp only [applyRow, rule]
      exact congrArg (· ++ _) (filter_congr fun _ _ => decide_eq_decide.2 Iff.rfl)
    rw [foldl_cons, one, ih fun later member => protocol later (mem_cons_of_mem _ member)]
    rfl

example : rulename (0x0a, 0xff, 0x00) 554 = ascii ['0', 'a', 'f', 'f', '0', '0', '_', '5', '5', '4'] := rfl

theorem doSktSemoOption_eq (headers : Headers) (db : AppRuleDb) (chaddr : Mac) (yiaddr : UInt32) :
    doSktSemoOption headers db chaddr yiaddr =
      ((ports chaddr.oui).map fun sport => forward headers chaddr.tail sport yiaddr).foldl
        (store NetfilterRule.ruleName) db := by
  have protocol : ∀ row ∈ rows, row.protocol = ascii ['a', 'l', 'l'] := by decide
  rw [ports, ← foldl_applyRow chaddr yiaddr fun row member => protocol row (mem_filter.1 member).1, foldl_filter]
  unfold doSktSemoOption
  split
  · simp
  · rename_i stranger
    -- without a row of the vendor the second loop would change nothing
    have none : rows.filter (fun row => decide (chaddr.oui = row.oui)) = [] := by
      simpa using stranger
    rw [← foldl_filter, none]
    rfl

theorem ruleDb_eq (headers : Headers) (acks : List Ack) : ruleDb headers acks = stored NetfilterRule.ruleName
      (acks.flatMap fun ack => (ports ack.chaddr.oui).map fun sport => forward headers ack.chaddr.tail sport ack.yiaddr) := by
  rw [stored, foldl_flatMap]
  exact congrArg (fun step => acks.foldl step []) (funext fun db => funext fun ack => doSktSemoOption_eq _ _ _ _)

/-! ## Who has a forward -/

/-- The address that was given to the device last. -/
def latest (acks : List Ack) (chaddr : Mac) : Option UInt32 :=
  (acks.filter fun ack => ack.chaddr = chaddr).getLast?.map Ack.yiaddr

/-- The address that was given last to a device that ends in `tail` and whose vendor has the port. -/
def current (acks : List Ack) (tail : Tail) (sport : Nat) : Option UInt32 :=
  (acks.filter fun ack => ack.chaddr.tail = tail ∧ HasPort ack.chaddr sport).getLast?.map Ack.yiaddr

theorem filter_rules (bound : sport < 10 ^ 10) (ack : Ack) :
    ((ports ack.chaddr.oui).map fun port => forward headers ack.chaddr.tail port ack.yiaddr).filter
        (fun rule => rule.ruleName = rulename tail sport) =
      if ack.chaddr.tail = tail ∧ HasPort ack.chaddr sport then [forward headers tail sport ack.yiaddr] else [] := by
  have named : ∀ port ∈ ports ack.chaddr.oui,
      decide ((forward headers ack.chaddr.tail port ack.yiaddr).ruleName = rulename tail sport) =
        decide (ack.chaddr.tail = tail ∧ port = sport) := by
    intro port listed
    exact decide_eq_decide.2 (rulename_inj (port_bound (mem_ports.1 listed)) bound)
  rw [List.filter_map, Function.comp_def, filter_congr named]
  by_cases same : ack.chaddr.tail = tail
  · subst same
    by_cases listed : HasPort ack.chaddr sport
    · have once : (ports ack.chaddr.oui).filter (fun port => decide (port = sport)) = [sport] := by
        rw [filter_eq, count_eq_one_of_mem (ports_nodup _) (mem_ports.2 listed)]
        rfl
      simp [listed, once]
    · have none : (ports ack.chaddr.oui).filter (fun port => decide (port = sport)) = [] := by
        simpa using fun port isPort (is : port = sport) => listed (mem_ports.1 (is ▸ isPort))
      simp [listed, none]
  · simp [same]

theorem filter_ruleDb (headers : Headers) (acks : List Ack) (tail : Tail) (bound : sport < 10 ^ 10) :
    (ruleDb headers acks).filter (fun rule => rule.ruleName = rulename tail sport) =
      ((current acks tail sport).map (forward headers tail sport)).toList := by
  have rules : (acks.flatMap fun ack => if ack.chaddr.tail = tail ∧ HasPort ack.chaddr sport then
      [forward headers tail sport ack.yiaddr] else []) =
      (acks.filter fun ack => ack.chaddr.tail = tail ∧ HasPort ack.chaddr sport).map
        fun ack => forward headers tail sport ack.yiaddr := by
    induction acks with
    | nil => rfl
    | cons ack acks ih =>
      rw [flatMap_cons, ih]
      by_cases matching : ack.chaddr.tail = tail ∧ HasPort ack.chaddr sport
      · rw [if_pos matching, filter_cons, if_pos (decide_eq_true matching)]
        rfl
      · rw [if_neg matching, filter_cons, if_neg (by simpa using matching)]
        rfl
  rw [ruleDb_eq, filter_stored, filter_flatMap]
  simp only [filter_rules bound]
  rw [rules, getLast?_map, current, Option.map_map]
  rfl

/-! ## Whether the forwards are kept -/

def NetfilterRule.Forwards (rule : NetfilterRule) (sport : Nat) (ipaddr : UInt32) : Prop :=
  rule.dstPortStart = sport ∧ rule.ipStart = ntohl ipaddr

instance (rule : NetfilterRule) (sport : Nat) (ipaddr : UInt32) : Decidable (rule.Forwards sport ipaddr) :=
  inferInstanceAs (Decidable (_ ∧ _))

/-- Every port of every acknowledged device has exactly one rule under its name, and it leads to the
address given last. -/
def KeptByName (headers : Headers) (acks : List Ack) : Prop :=
  ∀ chaddr ipaddr sport, latest acks chaddr = some ipaddr → HasPort chaddr sport →
    ∃ rule, (ruleDb headers acks).filter (fun rule => rule.ruleName = rulename chaddr.tail sport) = [rule] ∧
      rule.Forwards sport ipaddr

/-- Every port of every acknowledged device has exactly one rule, of any name, that leads to the
address given last. -/
def KeptByTarget (headers : Headers) (acks : List Ack) : Prop :=
  ∀ chaddr ipaddr sport, latest acks chaddr = some ipaddr → HasPort chaddr sport →
    ∃ rule, (ruleDb headers acks).filter (fun rule => rule.Forwards sport ipaddr) = [rule]

theorem forward_forwards_iff {ipaddr ipaddr' : UInt32} :
    (forward headers tail sport ipaddr).Forwards sport' ipaddr' ↔ sport = sport' ∧ ipaddr = ipaddr' := by
  refine and_congr_right fun _ => ⟨fun same => ?_, fun same => congrArg ntohl same⟩
  rw [← ntohl_ntohl ipaddr, ← ntohl_ntohl ipaddr']
  exact congrArg ntohl same

theorem mem_ruleDb {rule : NetfilterRule} : rule ∈ ruleDb headers acks ↔
    ∃ tail sport ipaddr, sport < 10 ^ 10 ∧ current acks tail sport = some ipaddr ∧
      rule = forward headers tail sport ipaddr := by
  constructor
  · intro member
    have wasStored := member
    rw [ruleDb_eq, mem_stored] at wasStored
    obtain ⟨ack, -, made⟩ := mem_flatMap.1 (mem_filter.1 (mem_of_getLast? wasStored)).1
    obtain ⟨sport, listed, rfl⟩ := List.mem_map.1 made
    have bound := port_bound (mem_ports.1 listed)
    have named : forward headers ack.chaddr.tail sport ack.yiaddr ∈ (ruleDb headers acks).filter
        (fun rule => rule.ruleName = rulename ack.chaddr.tail sport) :=
      mem_filter.2 ⟨member, decide_eq_true rfl⟩
    rw [filter_ruleDb headers acks ack.chaddr.tail bound, mem_toList] at named
    obtain ⟨ipaddr, isCurrent, same⟩ := map_eq_some_iff.1 named
    exact ⟨ack.chaddr.tail, sport, ipaddr, bound, isCurrent, same.symm⟩
  · rintro ⟨tail, sport, ipaddr, bound, isCurrent, rfl⟩
    have named : forward headers tail sport ipaddr ∈ (ruleDb headers acks).filter
        (fun rule => rule.ruleName = rulename tail sport) := by
      rw [filter_ruleDb headers acks tail bound, isCurrent]
      exact mem_singleton_self _
    exact mem_of_mem_filter named

/-- No other device of the name was acknowledged later with another address. -/
theorem keptByName_iff : KeptByName headers acks ↔
    ∀ chaddr ipaddr sport, latest acks chaddr = some ipaddr → HasPort chaddr sport →
      current acks chaddr.tail sport = some ipaddr := by
  refine forall_congr' fun chaddr => forall_congr' fun ipaddr => forall_congr' fun sport =>
    forall_congr' fun _ => forall_congr' fun listed => ?_
  rw [filter_ruleDb headers acks chaddr.tail (port_bound listed)]
  cases current acks chaddr.tail sport with
  | none => simp
  | some ipaddr' => simp [forward_forwards_iff]

theorem keptByTarget_iff : KeptByTarget headers acks ↔
    ∀ chaddr ipaddr sport, latest acks chaddr = some ipaddr → HasPort chaddr sport →
      ∃! tail, current acks tail sport = some ipaddr := by
  refine forall_congr' fun chaddr => forall_congr' fun ipaddr => forall_congr' fun sport =>
    forall_congr' fun _ => forall_congr' fun listed => ?_
  have bound := port_bound listed
  have nodup : (ruleDb headers acks).Nodup := by
    rw [ruleDb_eq]
    exact List.Nodup.of_map _ (nodup_stored _)
  have member rule : rule ∈ (ruleDb headers acks).filter (fun rule => rule.Forwards sport ipaddr) ↔
      ∃ tail, current acks tail sport = some ipaddr ∧ rule = forward headers tail sport ipaddr := by
    rw [mem_filter, mem_ruleDb, decide_eq_true_eq]
    constructor
    · rintro ⟨⟨tail, _, _, -, isCurrent, rfl⟩, forwards⟩
      obtain ⟨rfl, rfl⟩ := forward_forwards_iff.1 forwards
      exact ⟨tail, isCurrent, rfl⟩
    · rintro ⟨tail, isCurrent, rfl⟩
      exact ⟨⟨tail, sport, ipaddr, bound, isCurrent, rfl⟩, forward_forwards_iff.2 ⟨rfl, rfl⟩⟩
  rw [exists_eq_singleton_iff (nodup.filter _)]
  simp only [member]
  constructor
  · rintro ⟨_, ⟨tail, isCurrent, rfl⟩, unique⟩
    refine ⟨tail, isCurrent, fun other isCurrent' => ?_⟩
    have same := unique _ ⟨other, isCurrent', rfl⟩
    exact ((rulename_inj bound bound).1 (congrArg NetfilterRule.ruleName same)).1
  · rintro ⟨tail, isCurrent, unique⟩
    refine ⟨_, ⟨tail, isCurrent, rfl⟩, ?_⟩
    rintro _ ⟨other, isCurrent', rfl⟩
    rw [unique other isCurrent']

/-- **Forwards are kept.**  By name, exactly if for each device and port the last acknowledgement of
a device with the same three bytes and the port gave the device's address; by target, exactly if
there is one ending whose last acknowledgement for the port gave it. -/
theorem forwards_kept_iff (headers : Headers) (acks : List Ack) : (KeptByName headers acks ↔
      ∀ chaddr ipaddr sport, latest acks chaddr = some ipaddr → HasPort chaddr sport →
        current acks chaddr.tail sport = some ipaddr) ∧
    (KeptByTarget headers acks ↔
      ∀ chaddr ipaddr sport, latest acks chaddr = some ipaddr → HasPort chaddr sport →
        ∃! tail, current acks tail sport = some ipaddr) :=
  ⟨keptByName_iff, keptByTarget_iff⟩

/-- A recorder and a device of another vendor, with the same ending. -/
def recorder : Mac := ⟨(0x00, 0x17, 0xbd), (0x01, 0x02, 0x03)⟩

def lookalike : Mac := ⟨(0x00, 0x1c, 0x46), (0x01, 0x02, 0x03)⟩

/-- 192.168.0.10 for the recorder, then 192.168.0.11 for the other. -/
def sameEnding : List Ack := [⟨recorder, 0x0a00a8c0⟩, ⟨lookalike, 0x0b00a8c0⟩]

def someHeaders : Headers := ⟨ascii ['b', 'r', '0'], 1, 2, 4⟩

/-- Port 8000 is not forwarded to the recorder any more. -/
theorem forward_displaced : ¬KeptByName someHeaders sameEnding ∧ ¬KeptByTarget someHeaders sameEnding := by
  constructor
  · intro kept
    have still := keptByName_iff.1 kept recorder 0x0a00a8c0 8000 (by decide) (by decide)
    revert still
    decide
  · intro kept
    obtain ⟨tail, isCurrent, -⟩ := keptByTarget_iff.1 kept recorder 0x0a00a8c0 8000 (by decide) (by decide)
    by_cases ending : tail = (0x01, 0x02, 0x03)
    · subst ending
      revert isCurrent
      decide
    · simp [current, sameEnding, recorder, Ne.symm ending] at isCurrent

end RouterApps.Udhcpd.SktSemo
