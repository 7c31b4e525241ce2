/-
# Bnet.Help -- the helper for Battle.net clients (nf_conntrack_bnet.c, nf_nat_bnet.c)

A client tells the game server its own address in its first message.  The helper looks for that
message by its header, of which there are two, and puts the router's address over the client's.
`data` is the memory from the end of the TCP header on; it has no end.

* The only test of a length counts the headers, so a packet of 80 bytes need not have a payload.
* The second loop counts a byte before it compares it, so the last byte of the short header is
  compared without effect.

`help_touches_only_matching_iff` says for which packets neither of the two matters.
-/
import RouterApps.CLib.Memory
import RouterApps.Theory.Search

namespace RouterApps.Bnet

open CLib Theory.Search List

/-! ## Data -/

/-- `struct nf_conntrack_tuple`, with addresses and ports in network order. -/
structure Tuple where
  l3num : UInt16
  srcIp : UInt32
  srcPort : UInt16
  dstIp : UInt32
  dstPort : UInt16
  protonum : UInt8
deriving DecidableEq

/-- The two directions of `ct->tuplehash`. -/
structure Conn where
  original : Tuple
  reply : Tuple

/-- An entry of the hash table of all connections: a tuple, and the connection it leads to. -/
structure Hashed where
  tuple : Tuple
  ctrack : Nat
deriving DecidableEq

/-- What the helper reads and writes of a TCP packet.  Header lengths are in words. -/
structure Skb where
  ihl : Nat
  doff : Nat
  saddr : UInt32
  rst : Bool
  fin : Bool
  ack : Bool
  mark : UInt32
  dataLen : Nat
  data : Nat → UInt8
  ihlValid : 5 ≤ ihl ∧ ihl ≤ 15
  doffValid : 5 ≤ doff ∧ doff ≤ 15

/-- `skb->len`. -/
def Skb.len (skb : Skb) : Nat := 4 * skb.ihl + 4 * skb.doff + skb.dataLen

def Skb.payload (skb : Skb) : List UInt8 := (List.range skb.dataLen).map skb.data

def nfAccept : UInt32 := 1

def nfQueue : UInt32 := 3

def ipprotoUdp : UInt8 := 17

/-- `htons(BNET_PORT)`, port 6112. -/
def bnetPort : UInt16 := 0xE017

def clientInfoPacketMinSize : Nat := 80

def clientInfoOffset : Nat := 16

def hostInfoHead : List UInt8 :=
  [0xff, 0x50, 0x32, 0x00, 0x00, 0x00, 0x00, 0x00, 0x36, 0x38, 0x58, 0x49, 0x50, 0x58, 0x45, 0x53]

def clientInfoOffset2 : Nat := 4

def hostInfoHead2 : List UInt8 := [0xff, 0x1E, 0x1A, 0x00]

/-! ## The helper -/

/-- The first loop with the bytes still to be compared.  The byte at 2 depends on the language of
the client. -/
def firstLoop (data : Nat → UInt8) : List UInt8 → Nat → Nat × Nat
  | [], offset => (offset, offset)
  | byte :: rest, offset =>
    if byte = data offset ∨ offset = 2 then firstLoop data rest (offset + 1) else (offset, offset + 1)

/-- The second loop.  It counts `offset` up before it compares. -/
def secondLoop (data : Nat → UInt8) : List UInt8 → Nat → Nat × Nat
  | [], offset => (offset, offset)
  | byte :: rest, offset =>
    if byte = data offset then secondLoop data rest (offset + 1) else (offset + 1, offset + 1)

/-- `nf_nat_mangle_tcp_packet` for four bytes. -/
def mangleTcpPacket (skb : Skb) (addrpos : Nat) (ip : UInt32) : Skb :=
  { skb with data := fun i => if addrpos ≤ i then (leBytes ip)[i - addrpos]?.getD (skb.data i) else skb.data i }

/-- The connection times out now, in both directions. -/
def timeout (net : List Hashed) (ctrack : Nat) : List Hashed := net.filter fun h => h.ctrack ≠ ctrack

/-- The game traffic from the client to the server.  The family is not set. -/
def Conn.ctTuple (ct : Conn) : Tuple where
  l3num := 0
  srcIp := ct.original.srcIp
  srcPort := bnetPort
  dstIp := ct.original.dstIp
  dstPort := ct.original.dstPort
  protonum := ipprotoUdp

/-- `nf_ct_tuple_mask_cmp` with the game traffic from the server to the router, from any port.  The
family is compared, and is not set. -/
def Conn.udpTupleMaskCmp (ct : Conn) (tuple : Tuple) : Bool :=
  tuple.srcIp = ct.original.dstIp && tuple.l3num = 0 && tuple.protonum = ipprotoUdp &&
    tuple.dstIp = ct.reply.dstIp && tuple.dstPort = bnetPort

/-- The end of `help`: a connection for game traffic is dropped. -/
def dropUdp (net : List Hashed) (ct : Conn) : List Hashed :=
  match net.find? fun h => h.tuple = ct.ctTuple with
  | some h => timeout net h.ctrack
  | none =>
    match net.find? fun h => ct.udpTupleMaskCmp h.tuple with
    | some h => timeout net h.ctrack
    | none => net

/-- It has read the bytes of `data` below `compared`, and written the four from `replaced` on. -/
structure Outcome where
  verdict : UInt32
  skb : Skb
  net : List Hashed
  compared : Nat
  replaced : Option Nat

def accepted (net : List Hashed) (skb : Skb) (compared : Nat) : Outcome := ⟨nfAccept, skb, net, compared, none⟩

/-- The end of `help`, with `pdata` behind the header. -/
def rewritten (net : List Hashed) (ct : Conn) (skb : Skb) (pdata compared : Nat) : Outcome where
  verdict := nfQueue
  skb := { mangleTcpPacket skb (pdata + 8) ct.reply.dstIp with mark := ct.original.srcIp }
  net := dropUdp net ct
  compared := compared
  replaced := some (pdata + 8)

def help (net : List Hashed) (ct : Conn) (skb : Skb) : Outcome :=
  if skb.len < clientInfoPacketMinSize then accepted net skb 0
  else if skb.saddr ≠ ct.reply.dstIp then accepted net skb 0
  else
    let (offset, pdata) := firstLoop skb.data hostInfoHead 0
    if offset ≠ clientInfoOffset then
      let (offset2, pdata2) := secondLoop skb.data hostInfoHead2 0
      if offset2 ≠ clientInfoOffset2 then accepted net skb (max pdata pdata2)
      else rewritten net ct skb pdata2 (max pdata pdata2)
    else rewritten net ct skb pdata pdata

/-- `bnet_help` with `help` as the hook: the end of a connection is queued as well. -/
def bnetHelp (net : List Hashed) (ct : Conn) (skb : Skb) : Outcome :=
  if skb.rst ∨ (skb.fin ∧ skb.ack) then ⟨nfQueue, { skb with mark := ct.original.srcIp }, net, 0, none⟩
  else help net ct skb

/-! ## The loops -/

section

variable (data : Nat → UInt8)

/-- The byte at `offset + i` passes the comparison of the first loop. -/
def Passes (data : Nat → UInt8) (head : List UInt8) (offset i : Nat) : Prop :=
  head[i]? = some (data (offset + i)) ∨ offset + i = 2

variable (head : List UInt8) (offset : Nat)

theorem firstLoop_cases : (firstLoop data head offset = (offset + head.length, offset + head.length) ∧
      ∀ i < head.length, Passes data head offset i) ∨
    ∃ i < head.length, firstLoop data head offset = (offset + i, offset + i + 1) ∧
      ¬ Passes data head offset i ∧ ∀ k < i, Passes data head offset k := by
  have passes : ∀ i < head.length,
      GoodAt (fun byte k => byte = data k ∨ k = 2) head offset i ↔ Passes data head offset i := by
    intro i inside
    simp [GoodAt, Passes, getElem?_eq_getElem inside]
  rcases loop_cases _ (firstLoop data) (fun k => (k, k)) (fun k => (k, k + 1)) (fun _ => rfl) (fun _ _ _ => rfl)
    head offset with ⟨ran, all⟩ | ⟨i, inside, stopped, fails, earlier⟩
  · exact .inl ⟨ran, fun i inside => (passes i inside).1 (all i inside)⟩
  · exact .inr ⟨i, inside, stopped, fun pass => fails ((passes i inside).2 pass),
      fun k less => (passes k (less.trans inside)).1 (earlier k less)⟩

theorem secondLoop_cases : (secondLoop data head offset = (offset + head.length, offset + head.length) ∧
      ∀ i < head.length, head[i]? = some (data (offset + i))) ∨
    ∃ i < head.length, secondLoop data head offset = (offset + i + 1, offset + i + 1) ∧
      head[i]? ≠ some (data (offset + i)) ∧ ∀ k < i, head[k]? = some (data (offset + k)) := by
  have same : ∀ i < head.length,
      GoodAt (fun byte k => byte = data k) head offset i ↔ head[i]? = some (data (offset + i)) := by
    intro i inside
    simp [GoodAt, getElem?_eq_getElem inside]
  rcases loop_cases _ (secondLoop data) (fun k => (k, k)) (fun k => (k + 1, k + 1)) (fun _ => rfl) (fun _ _ _ => rfl)
    head offset with ⟨ran, all⟩ | ⟨i, inside, stopped, differs, earlier⟩
  · exact .inl ⟨ran, fun i inside => (same i inside).1 (all i inside)⟩
  · exact .inr ⟨i, inside, stopped, fun equal => differs ((same i inside).2 equal),
      fun k less => (same k (less.trans inside)).1 (earlier k less)⟩

end

/-! ## Headers in the payload -/

theorem payload_getElem? (skb : Skb) (i : Nat) :
    skb.payload[i]? = if i < skb.dataLen then some (skb.data i) else none := by
  unfold Skb.payload
  split <;> rename_i inside
  · simp [getElem?_range inside]
  · simp [Nat.le_of_not_lt inside]

variable {skb : Skb}

theorem prefix_payload_iff {head : List UInt8} :
    head <+: skb.payload ↔ head.length ≤ skb.dataLen ∧ ∀ i < head.length, head[i]? = some (skb.data i) := by
  rw [prefix_iff_getElem?]
  constructor
  · intro same
    have inside : ∀ i < head.length, i < skb.dataLen ∧ head[i]? = some (skb.data i) := by
      intro i bound
      have here := same i bound
      rw [payload_getElem?] at here
      split at here
      · rename_i inside
        exact ⟨inside, (getElem?_eq_getElem bound).trans here.symm⟩
      · cases here
    refine ⟨?_, fun i bound => (inside i bound).2⟩
    by_contra short
    exact absurd (inside skb.dataLen (Nat.lt_of_not_le short)).1 (Nat.lt_irrefl _)
  · rintro ⟨long, same⟩ i bound
    rw [payload_getElem?, if_pos (Nat.lt_of_lt_of_le bound long), ← same i bound]
    exact getElem?_eq_getElem bound

/-- The payload begins with the long header, whatever its third byte is. -/
def StartsWithHead (payload : List UInt8) : Prop := ∃ byte, hostInfoHead.set 2 byte <+: payload

theorem startsWithHead_iff :
    StartsWithHead skb.payload ↔ 16 ≤ skb.dataLen ∧ ∀ i < 16, Passes skb.data hostInfoHead 0 i := by
  have length : hostInfoHead.length = 16 := rfl
  have other : ∀ byte i, i ≠ 2 → (hostInfoHead.set 2 byte)[i]? = hostInfoHead[i]? := fun byte i ne =>
    getElem?_set_ne ne.symm
  simp only [StartsWithHead, prefix_payload_iff]
  constructor
  · rintro ⟨byte, long, same⟩
    refine ⟨long, fun i inside => ?_⟩
    by_cases language : i = 2
    · exact .inr (by omega)
    · exact .inl (by rw [Nat.zero_add, ← same i inside, other byte i language])
  · rintro ⟨long, passes⟩
    refine ⟨skb.data 2, long, fun i inside => ?_⟩
    by_cases language : i = 2
    · subst language
      exact getElem?_set_self (by decide)
    · rw [other _ i language]
      rcases passes i inside with same | two
      · rwa [Nat.zero_add] at same
      · omega

/-! ## Which packets are rewritten rightly -/

/-- The packet passes or has one of the two headers, and the bytes that are compared and replaced
are in the payload. -/
structure TouchesOnlyMatching (net : List Hashed) (ct : Conn) (skb : Skb) : Prop where
  queued : (help net ct skb).verdict ≠ nfAccept → StartsWithHead skb.payload ∨ hostInfoHead2 <+: skb.payload
  compared : ∀ i < (help net ct skb).compared, i < skb.payload.length
  replaced : ∀ addrpos, (help net ct skb).replaced = some addrpos →
    ∀ i, addrpos ≤ i → i < addrpos + 4 → i < skb.payload.length

/-- The packet is not looked at, has a header and the address behind it, or differs from the long
header and from the first three bytes of the short one. -/
def Decided (ct : Conn) (skb : Skb) : Prop :=
  skb.len < 80 ∨ skb.saddr ≠ ct.reply.dstIp ∨
  (StartsWithHead skb.payload ∧ 28 ≤ skb.dataLen) ∨ (hostInfoHead2 <+: skb.payload ∧ 16 ≤ skb.dataLen) ∨
  ((∃ i < skb.dataLen, i < 16 ∧ ¬ Passes skb.data hostInfoHead 0 i) ∧
    ∃ i < skb.dataLen, i < 3 ∧ hostInfoHead2[i]? ≠ some (skb.data i))

section

variable (net : List Hashed) {ct : Conn} {skb : Skb}

@[simp] theorem length_payload (skb : Skb) : skb.payload.length = skb.dataLen := by simp [Skb.payload]

theorem help_of_ignored (ignored : skb.len < 80 ∨ skb.saddr ≠ ct.reply.dstIp) :
    help net ct skb = accepted net skb 0 := by
  by_cases short : skb.len < clientInfoPacketMinSize
  · exact if_pos short
  · exact (if_neg short).trans (if_pos (ignored.resolve_left short))

theorem help_cases (long : ¬ skb.len < 80) (own : skb.saddr = ct.reply.dstIp) :
    (help net ct skb = rewritten net ct skb 16 16 ∧ ∀ i < 16, Passes skb.data hostInfoHead 0 i) ∨
    ∃ i < 16, ¬ Passes skb.data hostInfoHead 0 i ∧ (∀ k < i, Passes skb.data hostInfoHead 0 k) ∧
      ((help net ct skb = rewritten net ct skb 4 (max (i + 1) 4) ∧ ∀ k < 4, hostInfoHead2[k]? = some (skb.data k)) ∨
        (help net ct skb = rewritten net ct skb 4 (max (i + 1) 4) ∧
          hostInfoHead2[3]? ≠ some (skb.data 3) ∧ ∀ k < 3, hostInfoHead2[k]? = some (skb.data k)) ∨
        ∃ j < 3, help net ct skb = accepted net skb (max (i + 1) (j + 1)) ∧
          hostInfoHead2[j]? ≠ some (skb.data j) ∧ ∀ k < j, hostInfoHead2[k]? = some (skb.data k)) := by
  have looked : help net ct skb =
      (let (offset, pdata) := firstLoop skb.data hostInfoHead 0
      if offset ≠ clientInfoOffset then
        let (offset2, pdata2) := secondLoop skb.data hostInfoHead2 0
        if offset2 ≠ clientInfoOffset2 then accepted net skb (max pdata pdata2)
        else rewritten net ct skb pdata2 (max pdata pdata2)
      else rewritten net ct skb pdata pdata) :=
    (if_neg long).trans (if_neg (not_not_intro own))
  rcases firstLoop_cases skb.data hostInfoHead 0 with ⟨ran, all⟩ | ⟨i, inside, stopped, fails, earlier⟩
  · refine .inl ⟨?_, all⟩
    rw [looked, ran]
    rfl
  · refine .inr ⟨i, inside, fails, earlier, ?_⟩
    have differs : 0 + i ≠ clientInfoOffset := by
      rw [Nat.zero_add]
      exact Nat.ne_of_lt inside
    rw [stopped] at looked
    replace looked := looked.trans (if_pos differs)
    rw [Nat.zero_add] at looked
    rcases secondLoop_cases skb.data hostInfoHead2 0 with ⟨ran, all⟩ | ⟨j, short, stopped2, other, before⟩
    · refine .inl ⟨?_, fun k inside => ?_⟩
      · rw [looked, ran]
        rfl
      · simpa using all k inside
    · simp only [Nat.zero_add] at stopped2 other before
      rw [stopped2] at looked
      by_cases last : j = 3
      · subst last
        exact .inr (.inl ⟨looked, other, before⟩)
      · have shorter : j < 3 := Nat.lt_of_le_of_ne (Nat.le_of_lt_succ short) last
        refine .inr (.inr ⟨j, shorter, ?_, other, before⟩)
        exact looked.trans (if_pos (Nat.ne_of_lt (Nat.succ_lt_succ shorter)))

variable {net}

theorem touches_iff_of_accepted {compared : Nat} (passed : help net ct skb = accepted net skb compared) :
    TouchesOnlyMatching net ct skb ↔ compared ≤ skb.dataLen := by
  constructor
  · intro touches
    have inside := touches.compared
    rw [passed, length_payload] at inside
    exact Nat.le_of_not_lt fun less => absurd (inside _ less) (Nat.lt_irrefl _)
  · intro inside
    refine ⟨fun queued => ?_, fun i read => ?_, fun addrpos written => ?_⟩
    · rw [passed] at queued
      exact absurd rfl queued
    · rw [passed] at read
      rw [length_payload]
      exact Nat.lt_of_lt_of_le read inside
    · rw [passed] at written
      cases written

theorem touches_iff_of_rewritten {pdata compared : Nat} (changed : help net ct skb = rewritten net ct skb pdata compared) :
    TouchesOnlyMatching net ct skb ↔
      (StartsWithHead skb.payload ∨ hostInfoHead2 <+: skb.payload) ∧ compared ≤ skb.dataLen ∧
        pdata + 12 ≤ skb.dataLen := by
  constructor
  · rintro ⟨queued, inside, written⟩
    rw [changed] at queued inside written
    rw [length_payload] at inside
    refine ⟨queued (show nfQueue ≠ nfAccept by decide), ?_, ?_⟩
    · exact Nat.le_of_not_lt fun less => absurd (inside _ less) (Nat.lt_irrefl _)
    · have last := written (pdata + 8) rfl (pdata + 11) (by omega) (by omega)
      rw [length_payload] at last
      omega
  · rintro ⟨begins, inside, written⟩
    refine ⟨fun _ => begins, fun i read => ?_, fun addrpos here i low high => ?_⟩
    · rw [changed] at read
      rw [length_payload]
      exact Nat.lt_of_lt_of_le read inside
    · rw [changed] at here
      obtain rfl := Option.some.inj here
      rw [length_payload]
      omega

end

/-- **What the helper touches.**  Only packets with one of the two headers are queued, and only
bytes of the payload are compared and replaced, exactly if the payload itself decides. -/
theorem help_touches_only_matching_iff (net : List Hashed) (ct : Conn) (skb : Skb) :
    TouchesOnlyMatching net ct skb ↔ Decided ct skb := by
  by_cases ignored : skb.len < 80 ∨ skb.saddr ≠ ct.reply.dstIp
  · rw [touches_iff_of_accepted (help_of_ignored net ignored)]
    exact iff_of_true (Nat.zero_le _) (ignored.imp_right .inl)
  obtain ⟨long, own⟩ := not_or.1 ignored
  have decided : Decided ct skb ↔ _ := (or_iff_right long).trans (or_iff_right own)
  rw [decided]
  rcases help_cases net long (not_not.1 own) with ⟨changed, all⟩ | ⟨i, inside, fails, earlier, second⟩
  · -- the long header, perhaps in part behind the payload
    rw [touches_iff_of_rewritten changed]
    constructor
    · rintro ⟨-, -, reaches⟩
      exact .inl ⟨startsWithHead_iff.2 ⟨by omega, all⟩, reaches⟩
    · rintro (⟨begins, reaches⟩ | ⟨begins, -⟩ | ⟨⟨i, -, bound, fails⟩, -⟩)
      · exact ⟨.inl begins, by omega, reaches⟩
      · have same := (prefix_payload_iff.1 begins).2 1 (by decide)
        have passes := (all 1 (by decide)).resolve_right (by decide)
        rw [← same] at passes
        exact absurd passes (by decide)
      · exact absurd (all i bound) fails
  have noHead : ¬ StartsWithHead skb.payload := fun begins => fails ((startsWithHead_iff.1 begins).2 i inside)
  rcases second with ⟨changed, all⟩ | ⟨changed, differs, before⟩ | ⟨j, short, passed, differs, before⟩
  · rw [touches_iff_of_rewritten changed]
    constructor
    · rintro ⟨begins, -, reaches⟩
      exact .inr (.inl ⟨begins.resolve_left noHead, reaches⟩)
    · rintro (⟨begins, -⟩ | ⟨begins, reaches⟩ | ⟨-, k, -, bound, differs⟩)
      · exact absurd begins noHead
      · exact ⟨.inr begins, by omega, reaches⟩
      · exact absurd (all k (by omega)) differs
  · -- the byte that is counted and differs
    have noHead2 : ¬ hostInfoHead2 <+: skb.payload := fun begins =>
      differs ((prefix_payload_iff.1 begins).2 3 (by decide))
    rw [touches_iff_of_rewritten changed]
    constructor
    · rintro ⟨begins, -⟩
      exact absurd begins (not_or.2 ⟨noHead, noHead2⟩)
    · rintro (⟨begins, -⟩ | ⟨begins, -⟩ | ⟨-, k, -, bound, other⟩)
      · exact absurd begins noHead
      · exact absurd begins noHead2
      · exact absurd (before k bound) other
  · have noHead2 : ¬ hostInfoHead2 <+: skb.payload := fun begins =>
      differs ((prefix_payload_iff.1 begins).2 j (Nat.lt_succ_of_lt short))
    rw [touches_iff_of_accepted passed]
    constructor
    · intro read
      exact .inr (.inr ⟨⟨i, by omega, inside, fails⟩, j, by omega, short, differs⟩)
    · rintro (⟨begins, -⟩ | ⟨begins, -⟩ | ⟨⟨k, there, -, other⟩, k2, there2, -, other2⟩)
      · exact absurd begins noHead
      · exact absurd begins noHead2
      · -- the first byte that fails is not behind one in the payload that fails
        have first : i ≤ k := Nat.le_of_not_lt fun less => other (earlier k less)
        have first2 : j ≤ k2 := Nat.le_of_not_lt fun less => other2 (before k2 less)
        omega

/-- A packet with the given payload and zeros behind it, between the addresses 10.0.0.1 and 10.0.0.2. -/
def sample (doff : Nat) (valid : 5 ≤ doff ∧ doff ≤ 15) (payload : List UInt8) : Skb where
  ihl := 5
  doff := doff
  saddr := 0x0100000A
  rst := false
  fin := false
  ack := true
  mark := 0
  dataLen := payload.length
  data := fun i => payload[i]?.getD 0
  ihlValid := by decide
  doffValid := valid

def sampleConn : Conn :=
  ⟨⟨2, 0x0200A8C0, bnetPort, 0x0200000A, bnetPort, 6⟩, ⟨2, 0x0200000A, bnetPort, 0x0100000A, bnetPort, 6⟩⟩

/-- A payload that begins with ff 1e 1a 01 has neither header, and is rewritten.  In a packet
without payload a byte behind it is compared. -/
theorem help_touches_others : ¬ TouchesOnlyMatching [] sampleConn
      (sample 5 (by decide) ([0xff, 0x1E, 0x1A, 0x01] ++ List.replicate 56 0)) ∧
    ¬ TouchesOnlyMatching [] sampleConn (sample 15 (by decide) []) := by
  constructor
  · rintro ⟨queued, -, -⟩
    have begins := queued (by decide)
    rw [startsWithHead_iff, prefix_payload_iff] at begins
    rcases begins with ⟨-, passes⟩ | ⟨-, same⟩
    · exact absurd (passes 1 (by decide)) (by unfold Passes; decide)
    · exact absurd (same 3 (by decide)) (by decide)
  · rintro ⟨-, compared, -⟩
    exact absurd (compared 0 (by decide)) (by decide)

end RouterApps.Bnet
